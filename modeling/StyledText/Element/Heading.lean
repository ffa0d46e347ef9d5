import StyledText.Element.Context
import StyledText.Theme.Reading
import StyledText.Escape.Truncation

/-!
# Headings

Headings of sizes 1 and 2 stand in a frame as wide as the layout, those of sizes 3 and 4
are bold and that of size 5 is dim. Blank lines follow as the theme says.
-/
namespace StyledText

open Style

/-- The characters of a frame. -/
structure Frame where
  topLeft : Char
  topRight : Char
  bottomLeft : Char
  bottomRight : Char
  horizontal : Char
  vertical : Char
  deriving DecidableEq, Repr

namespace Frame

def double : Frame := ⟨'╔', '╗', '╚', '╝', '═', '║'⟩

def single : Frame := ⟨'┌', '┐', '└', '┘', '─', '│'⟩

def edge (f : Frame) (inner : Nat) (left right : Char) : Text :=
  left :: List.replicate inner f.horizontal ++ [right]

/-- A line of text in a frame of the given width, cut to fit. -/
def around (f : Frame) (value : Text) (width : Nat) : Text :=
  let inner := width - 2
  let shown := Escape.truncate inner value
  let fill := inner - Escape.visibleWidth shown
  f.edge inner f.topLeft f.topRight ++ '\n' :: f.vertical :: shown ++ Text.spaces fill ++
    f.vertical :: '\n' :: f.edge inner f.bottomLeft f.bottomRight

end Frame

structure Heading where
  value : Text
  size : Option Nat := none
  deriving DecidableEq, Repr, Inhabited

namespace Heading

/-- Sizes run from 1 to 5. -/
def clampSize (n : Nat) : Nat := max 1 (min n 5)

def withSize (h : Heading) (n : Nat) : Heading := { h with size := some (clampSize n) }

/-- The size set, or that of the theme. -/
def effectiveSize (h : Heading) (c : Context) : Nat :=
  clampSize (h.size.getD (c.theme.getOr Yaml.Value.byte? "heading.size" 1))

/-- Blank lines behind a heading. -/
def blankLines (c : Context) : Nat := c.theme.getOr Yaml.Value.count? "heading.spacing" 1

/-- The heading without its color. -/
def shape (size : Nat) (value : Text) (width : Nat) : Text :=
  match size with
  | 1 => decorate .bold (Frame.double.around value width)
  | 2 => decorate .bold (Frame.single.around value width)
  | 3 | 4 => decorate .bold value
  | _ => decorate .dim value

/-- The heading in the color of the theme, if it has one for headings. -/
def colored (c : Context) (shaped : Text) : Text :=
  match c.theme.getText? "heading.color" with
  | some name => paint { color := some (c.theme.resolveColor name) } shaped
  | none => shaped

def render (h : Heading) (c : Context) : Text :=
  colored c (shape (h.effectiveSize c) (c.expand h.value) c.width) ++
    '\n' :: List.replicate (blankLines c) '\n'

end Heading
end StyledText

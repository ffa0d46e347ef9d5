import StyledText.Text.Basic

/-!
# Style attributes

Attributes say how a run of text looks and how it is laid out. Every field may be unset;
`merge` overlays one set of attributes on another, field by field, and joins their
decorations. Decorations are a set, listed in the order of their declaration.
-/
namespace StyledText.Style

inductive Decoration where
  | bold | dim | italic | underline | blink | reverse | invisible | strikethrough
  deriving DecidableEq, Repr

namespace Decoration

/-- All decorations in the order of their declaration. -/
def all : List Decoration :=
  [bold, dim, italic, underline, blink, reverse, invisible, strikethrough]

def name : Decoration → Text
  | bold => "bold"
  | dim => "dim"
  | italic => "italic"
  | underline => "underline"
  | blink => "blink"
  | reverse => "reverse"
  | invisible => "invisible"
  | strikethrough => "strikethrough"

def ofName? (name : Text) : Option Decoration := all.find? fun d => d.name = name

/-- The code that turns a decoration on. -/
def onCode : Decoration → Nat
  | bold => 1
  | dim => 2
  | italic => 3
  | underline => 4
  | blink => 5
  | reverse => 7
  | invisible => 8
  | strikethrough => 9

/-- The code that turns a decoration off; bold and dim share theirs. -/
def offCode : Decoration → Nat
  | bold => 22
  | dim => 22
  | italic => 23
  | underline => 24
  | blink => 25
  | reverse => 27
  | invisible => 28
  | strikethrough => 29

theorem mem_all (d : Decoration) : d ∈ all := by cases d <;> simp [all]

end Decoration

/-- A set of decorations. -/
@[ext] structure Decorations where
  contains : Decoration → Bool

namespace Decorations

def empty : Decorations := ⟨fun _ => false⟩

instance : Inhabited Decorations := ⟨empty⟩

def insert (s : Decorations) (d : Decoration) : Decorations := ⟨fun e => e = d || s.contains e⟩

def union (s t : Decorations) : Decorations := ⟨fun d => s.contains d || t.contains d⟩

def ofList (ds : List Decoration) : Decorations := ds.foldl insert empty

/-- The members in the order of their declaration. -/
def toList (s : Decorations) : List Decoration := Decoration.all.filter s.contains

instance : DecidableEq Decorations := fun s t =>
  decidable_of_iff (∀ d ∈ Decoration.all, s.contains d = t.contains d)
    ⟨fun h => Decorations.ext (funext fun d => h d d.mem_all), fun h _ _ => h ▸ rfl⟩

instance : Repr Decorations := ⟨fun s n => reprPrec s.toList n⟩

end Decorations

inductive Width where
  | columns (n : Nat)
  /-- As wide as the layout. -/
  | full
  deriving DecidableEq, Repr

inductive Align where
  | left | right
  deriving DecidableEq, Repr

namespace Align

def name : Align → Text
  | left => "left"
  | right => "right"

def ofName? (name : Text) : Option Align := [left, right].find? fun a => a.name = name

end Align

inductive Display where
  | inline
  /-- A newline follows. -/
  | block
  deriving DecidableEq, Repr

namespace Display

def name : Display → Text
  | inline => "inline"
  | block => "block"

def ofName? (name : Text) : Option Display := [inline, block].find? fun d => d.name = name

end Display

structure Attributes where
  color : Option Text := none
  background : Option Text := none
  decorations : Decorations := .empty
  paddingLeft : Option Nat := none
  paddingRight : Option Nat := none
  marginLeft : Option Nat := none
  marginRight : Option Nat := none
  width : Option Width := none
  align : Option Align := none
  display : Option Display := none
  deriving DecidableEq, Repr, Inhabited

namespace Attributes

/-- Add a decoration to the set. -/
def decorate (a : Attributes) (d : Decoration) : Attributes :=
  { a with decorations := a.decorations.insert d }

/-- `b` over `a`: fields set in `b` win, decorations are those of both. -/
def merge (a b : Attributes) : Attributes where
  color := b.color <|> a.color
  background := b.background <|> a.background
  decorations := a.decorations.union b.decorations
  paddingLeft := b.paddingLeft <|> a.paddingLeft
  paddingRight := b.paddingRight <|> a.paddingRight
  marginLeft := b.marginLeft <|> a.marginLeft
  marginRight := b.marginRight <|> a.marginRight
  width := b.width <|> a.width
  align := b.align <|> a.align
  display := b.display <|> a.display

/-- Replace both colors by what they stand for. -/
def mapColors (f : Text → Text) (a : Attributes) : Attributes :=
  { a with color := a.color.map f, background := a.background.map f }

/-- Names of the fields where attributes are written out. -/
def fields : List Text :=
  ["color", "bg", "decorations", "padding_left", "padding_right", "margin_left", "margin_right",
    "width", "text_align", "display"].map String.toList

/-- Nothing is set. -/
def isEmpty (a : Attributes) : Bool := a = {}

end Attributes
end StyledText.Style

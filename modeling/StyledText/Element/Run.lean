import StyledText.Element.Context
import StyledText.Theme.Reading

/-!
# Styled runs

A run is a text with style attributes and an optional link. From the outside in it is
rendered as its margins, the sequences of its style, its padding, and the expanded text.
With a width set the padding fills the box: the aligned side keeps its padding and the
other takes the rest. Spacing, alignment and display that are unset come from the theme's
table `el`. A block run ends with a newline.
-/
namespace StyledText

open Style

structure Run where
  value : Text
  attributes : Attributes := {}
  link : Option Text := none
  deriving DecidableEq, Repr, Inhabited

namespace Run

/-- Overlay a set of attributes. -/
def styles (r : Run) (a : Attributes) : Run := { r with attributes := r.attributes.merge a }

def decorate (r : Run) (d : Decoration) : Run := { r with attributes := r.attributes.decorate d }

/-- A field of the theme's table for runs. -/
def setting (name : Text) : Text := "el.".toList ++ name

/-- Columns set on the run, or those of the theme. -/
def spacing (theme : Theme) (set : Option Nat) (name : Text) : Nat :=
  set.getD (theme.getOr Yaml.Value.count? (setting name) 0)

def align (theme : Theme) (a : Attributes) : Align :=
  a.align.getD (theme.getOr Yaml.Value.align? (setting "text-align") .left)

def display (theme : Theme) (a : Attributes) : Display :=
  a.display.getD (theme.getOr Yaml.Value.display? (setting "display") .inline)

/-- The expanded text, linked if the run has a link. -/
def content (r : Run) (c : Context) : Text :=
  match r.link with
  | some address => Escape.hyperlink address (c.expand r.value)
  | none => c.expand r.value

/-- Columns of the box that a width asks for. -/
def box (layout : Nat) : Width → Nat
  | .columns n => Layout.boxWidth n false layout
  | .full => layout

/-- Spaces inside the style, left and right of content of the given width. -/
def inner (a : Attributes) (c : Context) (content : Nat) : Nat × Nat :=
  let left := spacing c.theme a.paddingLeft "padding-left"
  let right := spacing c.theme a.paddingRight "padding-right"
  match a.width with
  | none => (left, right)
  | some width =>
    let side := align c.theme a
    let kept := match side with
      | .left => left
      | .right => right
    Layout.padding content (box c.width width) side kept

def render (r : Run) (c : Context) : Text :=
  let a := r.attributes
  let content := r.content c
  let (left, right) := inner a c (Escape.visibleWidth content)
  let painted := paint (c.theme.resolveColors a) (Layout.pad content left right)
  let row := Layout.pad painted (spacing c.theme a.marginLeft "margin-left")
    (spacing c.theme a.marginRight "margin-right")
  match display c.theme a with
  | .block => row ++ ['\n']
  | .inline => row

end Run
end StyledText

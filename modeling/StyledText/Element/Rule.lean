import StyledText.Element.Context
import StyledText.Theme.Reading
import StyledText.Escape.Truncation

/-!
# Rules

A rule is a line of one character. A label stands two characters in from its aligned side,
with a space on either side, and is cut to the room that leaves.
-/
namespace StyledText

open Style

structure Rule where
  label : Text := []
  character : Option Char := none
  width : Option Nat := none
  full : Option Bool := none
  align : Option Align := none
  deriving DecidableEq, Repr, Inhabited

namespace Rule

/-- Characters between a label and the end of the line on its aligned side. -/
def inset : Nat := 2

/-- A fixed width, which is then not the full one. -/
def withWidth (r : Rule) (columns : Nat) : Rule :=
  { r with width := some columns, full := some false }

/-- The character set, or the first one that the theme names. -/
def mark (r : Rule) (c : Context) : Char :=
  r.character.getD (((c.theme.getText? "rule.character").bind List.head?).getD '─')

/-- Columns of the line. -/
def columns (r : Rule) (c : Context) : Nat :=
  Layout.boxWidth (r.width.getD (c.theme.getOr Yaml.Value.count? "rule.width" 50))
    (r.full.getD (c.theme.getOr Yaml.Value.bool? "rule.width-full" true)) c.width

def alignment (r : Rule) (c : Context) : Align :=
  r.align.getD (c.theme.getOr Yaml.Value.align? "rule.text-align" .left)

def render (r : Rule) (c : Context) : Text :=
  let columns := r.columns c
  let line (n : Nat) : Text := List.replicate n (r.mark c)
  let label := c.expand r.label
  let room := columns - (inset + 2)
  if label = [] ∨ room = 0 then line columns ++ ['\n']
  else
    let shown := Escape.truncate room label
    let (left, right) :=
      Layout.padding (Escape.visibleWidth shown + 2) columns (r.alignment c) inset
    line left ++ ' ' :: shown ++ ' ' :: line right ++ ['\n']

end Rule
end StyledText

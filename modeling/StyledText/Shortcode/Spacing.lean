import StyledText.Markup.Registry
import StyledText.Theme.Basic
import StyledText.Layout

/-!
# Spacing tags

Padding and margin tags put spaces around their content. The unnamed value is a number of
columns, scaled by the theme's multipliers for the side and for both sides together; the
two-sided tags halve it first. A named `l` or `r` of the plain tag is taken as it is. No
side ever gets more than `maxSpacing` spaces.
-/
namespace StyledText.Shortcode

open Markup

/-- The most spaces that one side of a tag produces. -/
def maxSpacing : Nat := 10000

/-- Whole columns of a number: none unless it is finite and positive, and never more than
the most. -/
def columns (x : Float) : Nat :=
  if x.isFinite && x > 0.0 then min x.floor.toUInt64.toNat maxSpacing else 0

/-- Which sides a spacing tag serves. -/
inductive Sides where
  /-- Both, either of which may be named. -/
  | named
  /-- Both, half of the value each. -/
  | split
  | left
  | right
  deriving DecidableEq, Repr

namespace Sides

/-- Letter behind the initial of the group. -/
def suffix : Sides → Text
  | named => ""
  | split => "x"
  | left => "l"
  | right => "r"

end Sides

/-- The two groups of spacing tags. -/
inductive Group where
  | padding | margin
  deriving DecidableEq, Repr

namespace Group

/-- The table of the theme that holds the group's multipliers. -/
def name : Group → Text
  | padding => "padding"
  | margin => "margin"

def initial : Group → Text
  | padding => "p"
  | margin => "m"

end Group

/-- A multiplier of a group, one where the theme has none. -/
def multiplier (theme : Theme) (group : Group) (side : Text) : Float :=
  (theme.getNumber? (group.name ++ '.' :: side)).getD 1.0

/-- Columns of a value on one side. -/
def scaled (theme : Theme) (group : Group) (x : Float) (side : Text) : Nat :=
  columns (x * multiplier theme group side * multiplier theme group "global")

/-- Columns left and right of the content. -/
def spacing (group : Group) (sides : Sides) (parameters : Parameters) (theme : Theme) :
    Nat × Nat :=
  let value := parameters.unnamedNumber?.getD 0.0
  let half := value / 2.0
  match sides with
  | .left => (scaled theme group value "left", 0)
  | .right => (0, scaled theme group value "right")
  | .split => (scaled theme group half "left", scaled theme group half "right")
  | .named =>
    (((parameters.number? "l").map columns).getD (scaled theme group half "left"),
      ((parameters.number? "r").map columns).getD (scaled theme group half "right"))

/-- The handler of a spacing tag. -/
def spacingHandler (group : Group) (sides : Sides) : Handler Theme := fun invocation theme =>
  let (left, right) := spacing group sides invocation.parameters theme
  Layout.pad invocation.content left right

/-- The spacing tags by name. -/
def spacingHandlers : List (Text × Handler Theme) :=
  [Group.padding, .margin].flatMap fun group =>
    [Sides.named, .split, .left, .right].map fun sides =>
      (group.initial ++ sides.suffix, spacingHandler group sides)

end StyledText.Shortcode

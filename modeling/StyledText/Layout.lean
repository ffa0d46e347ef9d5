import StyledText.Style.Attributes

/-!
# Boxes and padding
-/
namespace StyledText.Layout

open Style

/-- Spaces left and right of content in a box. The aligned side keeps its padding and the
other takes what remains, which is nothing when the content is too wide. -/
def padding (content box : Nat) (align : Align) (inner : Nat) : Nat × Nat :=
  let rest := box - inner - content
  match align with
  | .left => (inner, rest)
  | .right => (rest, inner)

/-- The columns of a box: all of the layout, or those requested as far as they fit. -/
def boxWidth (requested : Nat) (full : Bool) (layout : Nat) : Nat :=
  if full then layout else min requested layout

/-- Content between spaces. -/
def pad (content : Text) (left right : Nat) : Text :=
  Text.spaces left ++ content ++ Text.spaces right

end StyledText.Layout

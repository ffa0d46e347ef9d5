import StyledText.Proofs.Element.Drawing
import StyledText.Proofs.Escape.Rejoining
import StyledText.Proofs.Escape.Truncation
import StyledText.Proofs.Shortcode.Lines

/-!
# Boxes of headings

A frame is an exact rectangle in every width, whatever it is around: a text that does not fit is cut
to the width inside and one that does is followed by spaces. In a layout too narrow for both of its
edges it is two columns wide.
-/
namespace StyledText

open Style Escape

namespace Frame

/-- A text as it stands in a frame. -/
def line (inner : ℕ) (shown : Text) : Text :=
  if shown.length ≤ inner then shown
  else if inner = 0 then [] else shown.take (inner - 1) ++ [ellipsis]

/-- The rows of a frame around a line. -/
def rows (f : Frame) (inner : ℕ) (line : Text) : List Text :=
  [f.edge inner f.topLeft f.topRight,
    f.vertical :: line ++ Text.spaces (inner - line.length) ++ [f.vertical],
    f.edge inner f.bottomLeft f.bottomRight]

theorem length_line (inner : ℕ) (shown : Text) : (line inner shown).length ≤ inner := by
  rw [line]
  split
  · assumption
  · split
    · exact Nat.zero_le inner
    · rw [List.length_append, List.length_take, List.length_singleton]
      omega

theorem length_edge (f : Frame) (inner : ℕ) (left right : Char) :
    (f.edge inner left right).length = inner + 2 := by
  simp [edge]

theorem length_of_mem_rows {f : Frame} {inner : ℕ} {line : Text} (fits : line.length ≤ inner) :
    ∀ row ∈ f.rows inner line, row.length = inner + 2 := by
  simp only [rows, List.forall_mem_cons, length_edge, List.length_append, List.length_cons]
  simp [Text.spaces]
  omega

theorem newline_notMem_rows {f : Frame} (characters : '\n' ∉ f.characters) {line : Text}
    (value : '\n' ∉ line) (inner : ℕ) : ∀ row ∈ f.rows inner line, '\n' ∉ row := by
  simp only [Frame.characters, List.mem_cons, not_or] at characters
  simp [rows, edge, Text.spaces, value, characters]

theorem newline_notMem_line {shown : Text} (single : '\n' ∉ shown) (inner : ℕ) :
    '\n' ∉ line inner shown := by
  rw [line]
  split
  · exact single
  · split
    · exact List.not_mem_nil
    · rw [List.mem_append, not_or]
      exact ⟨fun mem => single (List.mem_of_mem_take mem), by decide⟩

theorem truncate_eq_line {shown : Text} (plain : Plain shown) (inner : ℕ) :
    truncate inner shown = line inner shown := by
  have drawn := (Drawn.plain plain).truncate inner
  have cut := strip_truncate (Drawn.plain plain).whole inner
  rw [drawn.strip_eq, strip_of_notMem plain.1] at cut
  rw [cut, line, markOf]
  split
  · rfl
  · split
    · next zero => rw [zero, List.take_zero, List.append_nil]
    · rfl

theorem around_eq_join (f : Frame) {shown : Text} (plain : Plain shown) (width : ℕ) :
    f.around shown width =
      Text.join ['\n'] (f.rows (width - 2) (line (width - 2) shown)) := by
  have cut : Plain (line (width - 2) shown) := by
    rw [← truncate_eq_line plain]
    exact ((Drawn.plain plain).truncate _).plain_visible
  rw [around, truncate_eq_line plain, visibleWidth, strip_of_notMem cut.1]
  simp [rows, Text.join]

/-- Where no newline is drawn the rows are the lines of the frame, and blank ones may follow. -/
theorem splitAt_around {f : Frame} (characters : '\n' ∉ f.characters) {shown : Text}
    (plain : Plain shown) (single : '\n' ∉ shown) (width blanks : ℕ) :
    Text.splitAt '\n' (f.around shown width ++ '\n' :: List.replicate blanks '\n') =
      f.rows (width - 2) (line (width - 2) shown) ++ (List.replicate blanks [] ++ [[]]) := by
  have framed : f.rows (width - 2) (line (width - 2) shown) ≠ [] := List.cons_ne_nil _ _
  have blank : ∀ row ∈ List.replicate blanks ([] : Text) ++ [[]], '\n' ∉ row := by
    rw [List.forall_mem_append]
    refine ⟨fun row mem => ?_, by simp⟩
    rw [List.eq_of_mem_replicate mem]
    exact List.not_mem_nil
  have joined : f.around shown width ++ '\n' :: List.replicate blanks '\n' =
      Text.join ['\n'] (f.rows (width - 2) (line (width - 2) shown) ++
        (List.replicate blanks [] ++ [[]])) := by
    rw [around_eq_join f plain, Text.join_append framed (by simp), Text.join_replicate_nil,
      List.append_assoc, List.singleton_append]
  rw [joined]
  refine Text.splitAt_join (by simp) (List.forall_mem_append.2 ⟨?_, blank⟩)
  exact newline_notMem_rows characters (newline_notMem_line single _) _

end Frame

/-! ### Headings -/

section
variable {c : Context} (tags : c.shortcodes.registry = Shortcode.builtin)
include tags

theorem Context.newline_notMem_shown {text : Text} (plain : Plain text) (single : '\n' ∉ text) :
    '\n' ∉ c.shown text := by
  have expanded := Shortcode.newline_notMem_expand c.theme single
  rw [← (drawn_expand tags plain).strip_eq, expand, Shortcodes.expand, tags]
  exact fun mem => expanded ((strip_sublist _).subset mem)

/-- A heading of the first two sizes is three rows as wide as the layout, and blank lines behind
them. -/
theorem Heading.splitAt_strip_render {h : Heading} (plain : Plain h.value)
    (single : '\n' ∉ h.value) (boxed : h.effectiveSize c = 1 ∨ h.effectiveSize c = 2) :
    let frame := if h.effectiveSize c = 1 then Frame.double else Frame.single
    let rows := frame.rows (c.width - 2) (Frame.line (c.width - 2) (strip (c.expand h.value)))
    Text.splitAt '\n' (strip (h.render c)) = rows ++ (List.replicate (blankLines c) [] ++ [[]]) ∧
      ∀ row ∈ rows, row.length = max 2 c.width := by
  intro frame rows
  have expanded := Context.drawn_expand tags plain
  have shown : strip (h.render c) =
      frame.around (c.shown h.value) c.width ++ '\n' :: List.replicate (blankLines c) '\n' := by
    rw [(Heading.drawn_shown tags plain).strip_eq, Heading.shown]
    rcases boxed with size | size <;> simp only [frame, size] <;> rfl
  have characters : '\n' ∉ frame.characters := by
    dsimp only [frame]
    split <;> decide
  constructor
  · rw [shown, Frame.splitAt_around characters expanded.plain_visible
      (Context.newline_notMem_shown tags plain single), ← expanded.strip_eq]
  · intro row mem
    rw [Frame.length_of_mem_rows (Frame.length_line _ _) row mem]
    omega

end

theorem Heading.splitAt_strip_render_narrow :
    let theme := Theme.builtin.set "heading.color" (.string "red")
    let c (width : ℕ) : Context := { shortcodes := { theme }, fixedWidth := some width }
    let h : Heading := { value := "[b]ab[i]cd[/i][/b]".toList, size := some 1 }
    Text.splitAt '\n' (strip (h.render (c 5))) =
        ["╔═══╗", "║ab…║", "╚═══╝", "", ""].map String.toList ∧
      Text.splitAt '\n' (strip (h.render (c 1))) =
        ["╔╗", "║║", "╚╝", "", ""].map String.toList := by
  intro theme c h
  have plain : Plain h.value := ⟨by decide, by decide⟩
  have single : '\n' ∉ h.value := by decide
  have rendered (width : ℕ) :=
    (splitAt_strip_render (c := c width) (h := h) rfl plain single (.inl rfl)).1
  exact ⟨(rendered 5).trans (by decide +kernel), (rendered 1).trans (by decide +kernel)⟩

end StyledText

import StyledText.Proofs.Element.Drawing
import StyledText.Proofs.Shortcode.Lines

/-!
# Rows and their columns

A run is one row, as wide as its text and the spaces around it; in a box it is as wide as the box,
or as its text and the padding of the aligned side where those do not fit. The rows of an alert are
runs of their own. That of the message sets both sides of its padding and the empty ones only the
left, so the right padding of the theme sticks out of the box above and below the message.
-/
namespace StyledText

open Style Escape

namespace Layout

variable (content box inner : ℕ) (align : Align)

theorem padding_add :
    (padding content box align inner).1 + content + (padding content box align inner).2 =
      max box (inner + content) := by
  cases align <;> simp only [padding] <;> omega

theorem boxWidth_le (requested layout : ℕ) (full : Bool) :
    boxWidth requested full layout ≤ layout := by
  rw [boxWidth]
  split
  · exact Nat.le_refl layout
  · exact Nat.min_le_right requested layout

end Layout

/-! ### Runs -/

namespace Run

/-- What a run is rendered to, without the newline of a block. -/
def row (r : Run) (c : Context) : Text :=
  let content := r.content c
  let sides := inner r.attributes c (visibleWidth content)
  Layout.pad (paint (c.theme.resolveColors r.attributes) (Layout.pad content sides.1 sides.2))
    (spacing c.theme r.attributes.marginLeft "margin-left")
    (spacing c.theme r.attributes.marginRight "margin-right")

theorem render_block {r : Run} {c : Context} (block : display c.theme r.attributes = .block) :
    r.render c = r.row c ++ ['\n'] := by
  simp only [render, row, block]

/-- The padding of the side that the text is aligned to. -/
def keptPadding (theme : Theme) (a : Attributes) : ℕ :=
  match align theme a with
  | .left => spacing theme a.paddingLeft "padding-left"
  | .right => spacing theme a.paddingRight "padding-right"

theorem inner_of_width {a : Attributes} {width : Width} (set : a.width = some width) (c : Context)
    (content : ℕ) :
    inner a c content =
      Layout.padding content (box c.width width) (align c.theme a) (keptPadding c.theme a) := by
  cases side : align c.theme a <;> simp only [inner, set, keptPadding, side]

variable {c : Context} (tags : c.shortcodes.registry = Shortcode.builtin)
include tags

theorem visibleWidth_content {r : Run} (plain : (Element.run r).Plain c) :
    visibleWidth (r.content c) = visibleWidth (c.expand r.value) := by
  have shown := Context.drawn_expand tags plain.1
  rw [shown.visibleWidth_eq_length, (drawn_content tags plain).visibleWidth_eq_length]

theorem visibleWidth_row {r : Run} (plain : (Element.run r).Plain c) :
    visibleWidth (r.row c) =
      spacing c.theme r.attributes.marginLeft "margin-left" +
        ((inner r.attributes c (visibleWidth (c.expand r.value))).1 +
          visibleWidth (c.expand r.value) +
          (inner r.attributes c (visibleWidth (c.expand r.value))).2) +
        spacing c.theme r.attributes.marginRight "margin-right" := by
  have content := drawn_content tags plain
  rw [← visibleWidth_content tags plain, content.visibleWidth_eq_length, row]
  simp only [content.visibleWidth_eq_length]
  generalize inner r.attributes c (c.shown r.value).length = sides
  obtain ⟨left, right⟩ := sides
  have drawn := ((content.pad left right).paint (c.theme.resolveColors r.attributes)).pad
    (spacing c.theme r.attributes.marginLeft "margin-left")
    (spacing c.theme r.attributes.marginRight "margin-right")
  rw [drawn.visibleWidth_eq_length, Layout.length_pad, Layout.length_pad]

/-- In a box, a row is as wide as the box unless its text is too wide for it. -/
theorem visibleWidth_row_of_width {r : Run} (plain : (Element.run r).Plain c) {width : Width}
    (set : r.attributes.width = some width) :
    visibleWidth (r.row c) =
      spacing c.theme r.attributes.marginLeft "margin-left" +
        max (box c.width width)
          (keptPadding c.theme r.attributes + visibleWidth (c.expand r.value)) +
        spacing c.theme r.attributes.marginRight "margin-right" := by
  rw [visibleWidth_row tags plain, inner_of_width set, Layout.padding_add]

theorem newline_notMem_row {r : Run} (value : '\n' ∉ r.value)
    (link : ∀ address ∈ r.link, '\n' ∉ address) : '\n' ∉ r.row c := by
  have expanded := Shortcode.newline_notMem_expand c.theme value
  have content : '\n' ∉ r.content c := by
    rw [Run.content, Context.expand, Shortcodes.expand, tags]
    split
    · next address linked => exact newline_notMem_hyperlink (link address linked) expanded
    · exact expanded
  exact Layout.newline_notMem_pad (newline_notMem_paint (Layout.newline_notMem_pad content _ _) _)
    _ _

end Run

/-! ### Alerts -/

namespace Alert

variable {c : Context} {a : Alert}

theorem columns_le : a.columns c ≤ c.width := Layout.boxWidth_le _ _ _

theorem render_eq_rows : a.render c =
    (a.filler c).row c ++ '\n' :: ((a.body c).row c ++ '\n' :: ((a.filler c).row c ++ ['\n'])) := by
  have filler : (a.filler c).render c = (a.filler c).row c ++ ['\n'] := Run.render_block rfl
  have body : (a.body c).render c = (a.body c).row c ++ ['\n'] := Run.render_block rfl
  rw [render, filler, body]
  simp

theorem box_body (a : Alert) (c : Context) :
    Run.box c.width (.columns (a.columns c)) = a.columns c := Nat.min_eq_left columns_le

/-- The message keeps its padding on the side it is aligned to, whichever that is. -/
theorem keptPadding_body (a : Alert) (c : Context) :
    Run.keptPadding c.theme (a.body c).attributes = inset := by
  have side : Run.align c.theme (a.body c).attributes = a.alignment c := rfl
  rw [Run.keptPadding, side]
  cases a.alignment c <;> rfl

section
variable (tags : c.shortcodes.registry = Shortcode.builtin)
include tags

theorem visibleWidth_filler (a : Alert) :
    visibleWidth ((a.filler c).row c) =
      Run.spacing c.theme none "margin-left" +
        (a.columns c + Run.spacing c.theme none "padding-right") +
        Run.spacing c.theme none "margin-right" := by
  have plain : (Element.run (a.filler c)).Plain c := ⟨plain_nil, by simp [filler]⟩
  have empty : visibleWidth (c.expand (a.filler c).value) = 0 := by
    change (strip []).length = 0
    rw [strip_of_notMem List.not_mem_nil, List.length_nil]
  rw [Run.visibleWidth_row tags plain, empty]
  rfl

theorem visibleWidth_body (plain : Plain a.value) :
    visibleWidth ((a.body c).row c) =
      Run.spacing c.theme none "margin-left" +
        max (a.columns c) (inset + visibleWidth (c.expand a.value)) +
        Run.spacing c.theme none "margin-right" := by
  have message : (Element.run (a.body c)).Plain c := ⟨plain, by simp [body]⟩
  rw [Run.visibleWidth_row_of_width tags message rfl, box_body, keptPadding_body]
  rfl

/-- An alert is three rows. Where its message fits, that of the message is as wide as the box; the
others are wider by the right padding that the theme gives to runs. -/
theorem splitAt_render (plain : Plain a.value) (line : '\n' ∉ a.value)
    (fits : visibleWidth (c.expand a.value) + inset ≤ a.columns c) :
    ∃ filler body, Text.splitAt '\n' (a.render c) = [filler, body, filler, []] ∧
      visibleWidth body =
        Run.spacing c.theme none "margin-left" + a.columns c +
          Run.spacing c.theme none "margin-right" ∧
      visibleWidth filler = visibleWidth body + Run.spacing c.theme none "padding-right" := by
  have unlinked : ∀ address ∈ (none : Option Text), '\n' ∉ address := by simp
  have filler : '\n' ∉ (a.filler c).row c :=
    Run.newline_notMem_row tags List.not_mem_nil unlinked
  have body : '\n' ∉ (a.body c).row c := Run.newline_notMem_row tags line unlinked
  have around := visibleWidth_filler tags a
  have message := visibleWidth_body tags plain
  refine ⟨(a.filler c).row c, (a.body c).row c, ?_, ?_, ?_⟩
  · rw [render_eq_rows, Text.splitAt_append_cons filler, Text.splitAt_append_cons body,
      Text.splitAt_append_cons filler]
    rfl
  · omega
  · omega

end

/-- Under the built-in theme, which pads nothing, the rows are equally wide. -/
theorem splitAt_render_builtin :
    let c : Context := { shortcodes := { theme := Theme.builtin } }
    let a : Alert := { value := "[b]done[/b]".toList, width := some 10, align := some .right }
    ∃ filler body, Text.splitAt '\n' (a.render c) = [filler, body, filler, []] ∧
      visibleWidth body = 10 ∧ visibleWidth filler = 10 := by
  intro c a
  have plain : Plain a.value := ⟨by decide, by decide⟩
  have line : '\n' ∉ a.value := by decide
  have fits : visibleWidth (c.expand a.value) + inset ≤ a.columns c := by decide +kernel
  obtain ⟨filler, body, rows, message, around⟩ := splitAt_render (c := c) rfl plain line fits
  have margins : Run.spacing c.theme none "margin-left" + a.columns c +
      Run.spacing c.theme none "margin-right" = 10 := by decide +kernel
  have padding : Run.spacing c.theme none "padding-right" = 0 := by decide +kernel
  exact ⟨filler, body, rows, by rw [message, margins], by rw [around, message, margins, padding]⟩

/-- A theme that pads runs on the right makes the box wider than its message. -/
theorem rows_of_right_padding :
    let c : Context :=
      { shortcodes := { theme := Theme.builtin.set "el.padding-right" (.number (.integer 3)) } }
    let a : Alert := { value := "x".toList, width := some 10 }
    (Plain a.value ∧ '\n' ∉ a.value ∧ visibleWidth (c.expand a.value) + inset ≤ a.columns c) ∧
      (Text.splitAt '\n' (a.render c)).map visibleWidth = [13, 10, 13, 0] ∧
      ¬ ∃ header body footer, Text.splitAt '\n' (a.render c) = [header, body, footer, []] ∧
        visibleWidth header = visibleWidth body ∧ visibleWidth body = visibleWidth footer := by
  intro c a
  have fits : visibleWidth (c.expand a.value) + inset ≤ a.columns c := by decide +kernel
  have widths : (Text.splitAt '\n' (a.render c)).map visibleWidth = [13, 10, 13, 0] := by
    decide +kernel
  refine ⟨⟨⟨by decide, by decide⟩, by decide, fits⟩, widths, ?_⟩
  rintro ⟨header, body, footer, rows, same, -⟩
  rw [rows] at widths
  simp only [List.map_cons, List.cons.injEq] at widths
  omega

end Alert

end StyledText

import StyledText.Proofs.Element.Rows
import StyledText.Proofs.Terminal.Nesting

/-!
# Runs in their boxes

The margins of a run stand around its style and are shown in none. Inside, the text stands between
spaces: those that are set, or in a box those of the aligned side and what is left on the other. So
a run fills its box, and only its text can make it wider.
-/
namespace StyledText

open Style Escape

namespace Run

theorem render_eq_row (r : Run) (c : Context) :
    r.render c = r.row c ++
      match display c.theme r.attributes with
      | .block => ['\n']
      | .inline => [] := by
  simp only [render, row]
  cases display c.theme r.attributes
  · exact (List.append_nil _).symm
  · rfl

theorem inner_of_none {a : Attributes} (unset : a.width = none) (c : Context) (content : ℕ) :
    inner a c content =
      (spacing c.theme a.paddingLeft "padding-left",
        spacing c.theme a.paddingRight "padding-right") := by
  simp only [inner, unset]

/-- In a box the aligned side has its padding and no more. -/
theorem inner_aligned {a : Attributes} {width : Width} (set : a.width = some width) (c : Context)
    (content : ℕ) :
    match align c.theme a with
    | .left => (inner a c content).1 = keptPadding c.theme a
    | .right => (inner a c content).2 = keptPadding c.theme a := by
  rw [inner_of_width set]
  cases align c.theme a <;> rfl

section
variable {c : Context} (tags : c.shortcodes.registry = Shortcode.builtin)
include tags

theorem visibleWidth_row_of_none {r : Run} (plain : (Element.run r).Plain c)
    (unset : r.attributes.width = none) :
    visibleWidth (r.row c) =
      spacing c.theme r.attributes.marginLeft "margin-left" +
        (spacing c.theme r.attributes.paddingLeft "padding-left" +
          visibleWidth (c.expand r.value) +
          spacing c.theme r.attributes.paddingRight "padding-right") +
        spacing c.theme r.attributes.marginRight "margin-right" := by
  rw [visibleWidth_row tags plain, inner_of_none unset]

/-- Nothing is on in the margins around a style. -/
theorem shown_margins {r : Run} (plain : (Element.run r).Plain c)
    (left right marginLeft marginRight : ℕ) :
    let painted := paint (c.theme.resolveColors r.attributes)
      (Layout.pad (r.content c) left right)
    Terminal.shown {} (Layout.pad painted marginLeft marginRight) =
      Terminal.uniform {} (Text.spaces marginLeft) ++ Terminal.shown {} painted ++
        Terminal.uniform {} (Text.spaces marginRight) := by
  intro painted
  have free (n : ℕ) : esc ∉ Text.spaces n := (plain_spaces n).1
  have margin := whole_of_notMem (free marginLeft)
  have drawn := ((drawn_content tags plain).pad left right).paint
    (c.theme.resolveColors r.attributes)
  have settled : Terminal.run {} painted = {} := (Terminal.settles_of_drawn drawn).run
  rw [Layout.pad, Terminal.shown_append {} (margin.append drawn.whole),
    Terminal.shown_append {} margin, Terminal.run_append {} margin,
    Terminal.run_of_notMem {} (free marginLeft), settled,
    Terminal.shown_of_notMem {} (free marginLeft), Terminal.shown_of_notMem {} (free marginRight)]

/-- A run fills its box, and only its text can make it wider. Its margins stand outside of its
style. -/
theorem row_fills_box {r : Run} (plain : (Element.run r).Plain c) :
    let a := r.attributes
    let text := visibleWidth (c.expand r.value)
    let kept := keptPadding c.theme a
    let paddingLeft := spacing c.theme a.paddingLeft "padding-left"
    let paddingRight := spacing c.theme a.paddingRight "padding-right"
    let marginLeft := spacing c.theme a.marginLeft "margin-left"
    let marginRight := spacing c.theme a.marginRight "margin-right"
    (r.render c = r.row c ++
      match display c.theme a with
      | .block => ['\n']
      | .inline => []) ∧
    ∃ left right,
      let painted := paint (c.theme.resolveColors a)
        (Text.spaces left ++ r.content c ++ Text.spaces right)
      r.row c = Text.spaces marginLeft ++ painted ++ Text.spaces marginRight ∧
      Terminal.shown {} (r.row c) =
        Terminal.uniform {} (Text.spaces marginLeft) ++ Terminal.shown {} painted ++
          Terminal.uniform {} (Text.spaces marginRight) ∧
      (a.width = none →
        visibleWidth (r.row c) =
          marginLeft + (paddingLeft + text + paddingRight) + marginRight ∧
        left = paddingLeft ∧ right = paddingRight) ∧
      ∀ width, a.width = some width →
        visibleWidth (r.row c) = marginLeft + max (box c.width width) (kept + text) + marginRight ∧
        match align c.theme a with
        | .left => left = kept
        | .right => right = kept := by
  intro a text kept paddingLeft paddingRight marginLeft marginRight
  let sides := inner a c (visibleWidth (r.content c))
  refine ⟨render_eq_row r c, sides.1, sides.2, rfl,
    shown_margins tags plain sides.1 sides.2 marginLeft marginRight, fun unset => ?_,
    fun width set => ?_⟩
  · have given : sides = (paddingLeft, paddingRight) := inner_of_none unset c _
    exact ⟨visibleWidth_row_of_none tags plain unset, by rw [given], by rw [given]⟩
  · exact ⟨visibleWidth_row_of_width tags plain set,
      inner_aligned set c (visibleWidth (r.content c))⟩

end

/-- A linked text that fills its box and one that is too wide for it, behind a margin. -/
theorem row_fills_box_right :
    let theme := (Theme.builtin.set "el.padding-right" (.number (.integer 2))).set "el.text-align"
      (.string "right")
    let c : Context := { shortcodes := { theme } }
    let r (columns : ℕ) : Run :=
      { value := "[b]ab[/b]".toList, link := some "//x".toList,
        attributes := { width := some (.columns columns), marginLeft := some 1 } }
    visibleWidth ((r 8).row c) = 9 ∧ visibleWidth ((r 3).row c) = 5 := by
  intro theme c r
  have value : Plain "[b]ab[/b]".toList := ⟨by decide, by decide⟩
  have address : Plain "//x".toList := ⟨by decide, by decide⟩
  have plain (columns : ℕ) : (Element.run (r columns)).Plain c :=
    ⟨value, fun _ linked => Option.some.inj linked ▸ address⟩
  have width (columns : ℕ) : visibleWidth ((r columns).row c) =
      spacing theme (some 1) "margin-left" +
        max (box c.width (.columns columns))
          (keptPadding theme (r columns).attributes + visibleWidth (c.expand (r columns).value)) +
        spacing theme none "margin-right" := by
    obtain ⟨-, left, right, -, -, -, filled⟩ := row_fills_box (c := c) rfl (plain columns)
    exact (filled (.columns columns) rfl).1
  exact ⟨(width 8).trans (by decide +kernel), (width 3).trans (by decide +kernel)⟩

end Run
end StyledText

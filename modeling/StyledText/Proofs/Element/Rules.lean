import StyledText.Proofs.Element.Boxes
import StyledText.Proofs.Element.Restyling

/-!
# Rows of rules

A rule is exactly as wide as its box, whatever the box and the label. Its label stands behind two
characters and a space, cut to the room that is left. A rule shows no more of its label than can be
seen, with one exception: a label that is styling and nothing else still makes a gap in the line.
-/
namespace StyledText

open Style Escape

namespace Escape

theorem body?_cons_of_not_isSecond {c : Char} (h : isSecond c = false) (bracket : c ≠ '[')
    (cs : Text) : body? (c :: cs) = none := by
  have command : c ≠ ']' := by
    rintro rfl
    exact absurd h (by decide)
  rw [body?, if_neg bracket, if_neg command, h]
  rfl

/-- A character repeated is shown as often, also where it is ESC. -/
theorem strip_replicate_append (c : Char) (n : ℕ) {d : Char} (h : isSecond d = false)
    (bracket : d ≠ '[') (rest : Text) :
    strip (List.replicate n c ++ d :: rest) = List.replicate n c ++ strip (d :: rest) := by
  induction n with
  | zero => rfl
  | succ n ih =>
    rw [List.replicate_succ, List.cons_append, List.cons_append, ← ih]
    by_cases plain : c = esc
    · subst plain
      -- Neither ESC nor `d` behind ESC begins a sequence.
      refine strip_esc_of_none ?_
      cases n with
      | zero => exact body?_cons_of_not_isSecond h bracket rest
      | succ n => exact body?_cons_of_not_isSecond (by decide) (by decide) _
    · exact strip_cons_of_ne plain _

end Escape

namespace Rule

/-- The line without a label. -/
def blank (r : Rule) (c : Context) : Text := List.replicate (r.columns c) (r.mark c)

/-- The line with a label: two characters and a space on the side that it is aligned to, a space and
the rest of the line on the other. -/
def labelled (r : Rule) (c : Context) (label : Text) : Text :=
  let rest := List.replicate (r.columns c - (4 + label.length)) (r.mark c)
  match r.alignment c with
  | .left => [r.mark c, r.mark c, ' '] ++ label ++ ' ' :: rest
  | .right => rest ++ ' ' :: label ++ [' ', r.mark c, r.mark c]

/-- The line that is seen of a rule. -/
def row (r : Rule) (c : Context) : Text :=
  if c.expand r.label = [] ∨ r.columns c < 5 then r.blank c
  else r.labelled c (Frame.line (r.columns c - 4) (strip (c.expand r.label)))

variable {r : Rule} {c : Context}

theorem length_labelled {label : Text} (fits : label.length ≤ r.columns c - 4)
    (wide : 5 ≤ r.columns c) : (r.labelled c label).length = r.columns c := by
  rw [labelled]
  cases r.alignment c <;> simp <;> omega

theorem length_row : (r.row c).length = r.columns c := by
  rw [row]
  split
  · exact List.length_replicate
  · next labelled =>
    rw [not_or, Nat.not_lt] at labelled
    exact length_labelled (Frame.length_line _ _) labelled.2

theorem strip_line (mark : Char) (left right : ℕ) {label : Text} (whole : Whole label) :
    strip (List.replicate left mark ++ ' ' :: label ++ ' ' :: List.replicate right mark ++ ['\n']) =
      List.replicate left mark ++ ' ' :: strip label ++ ' ' :: List.replicate right mark ++
        ['\n'] := by
  have space (rest : Text) : strip (' ' :: rest) = ' ' :: strip rest :=
    strip_cons_of_ne (by decide) rest
  have newline : strip ['\n'] = ['\n'] := strip_of_notMem (by decide)
  simp only [List.append_assoc, List.cons_append]
  rw [strip_replicate_append mark left (by decide) (by decide), space, strip_append whole, space,
    strip_replicate_append mark right (by decide) (by decide), newline]

variable (tags : c.shortcodes.registry = Shortcode.builtin)
include tags

theorem strip_render (plain : Plain r.label) : strip (r.render c) = r.row c ++ ['\n'] := by
  have expanded := Context.drawn_expand tags plain
  have cut := expanded.truncate (r.columns c - 4)
  have seen : strip (Escape.truncate (r.columns c - 4) (c.expand r.label)) =
      Frame.line (r.columns c - 4) (strip (c.expand r.label)) := by
    rw [cut.strip_eq, expanded.strip_eq, Frame.truncate_eq_line expanded.plain_visible]
  have room : r.columns c - (inset + 2) = 0 ↔ r.columns c < 5 := by
    rw [inset]
    omega
  rw [render, row]
  simp only [room]
  split
  · have newline : strip ['\n'] = ['\n'] := strip_of_notMem (by decide)
    rw [blank, strip_replicate_append _ _ (by decide) (by decide), newline]
  · rw [labelled, visibleWidth, inset, seen]
    have rest (n : ℕ) : r.columns c - 2 - (n + 2) = r.columns c - (4 + n) := by omega
    cases r.alignment c with
    | left =>
      simp only [Layout.padding, rest]
      rw [strip_line _ _ _ cut.whole, seen]
      rfl
    | right =>
      simp only [Layout.padding, rest]
      rw [strip_line _ _ _ cut.whole, seen]
      simp

/-- A rule fills its box. Its label, cut to the width of the box less four columns, stands two
characters and a space behind the edge that it is aligned to. -/
theorem strip_render_labelled (plain : Plain r.label) :
    ∃ row, strip (r.render c) = row ++ ['\n'] ∧ row.length = r.columns c ∧
      (c.expand r.label ≠ [] → 5 ≤ r.columns c →
        row = r.labelled c (Frame.line (r.columns c - 4) (strip (c.expand r.label)))) := by
  refine ⟨r.row c, strip_render tags plain, length_row, fun label wide => ?_⟩
  rw [row, if_neg (not_or.2 ⟨label, Nat.not_lt.2 wide⟩)]

end Rule

/-- A label that just fits and one that is cut, in the two narrowest boxes with room for one. -/
theorem Rule.strip_render_labelled_narrow :
    let c (width : ℕ) : Context :=
      { shortcodes := { theme := Theme.builtin }, fixedWidth := some width }
    let r : Rule := { label := "[b]a[i]bc[/i][/b]".toList, align := some .right }
    strip (r.render (c 7)) = " abc ──\n".toList ∧ strip (r.render (c 5)) = " … ──\n".toList := by
  intro c r
  have plain : Plain r.label := ⟨by decide, by decide⟩
  have filled (width : ℕ) (wide : 5 ≤ r.columns (c width))
      (label : (c width).expand r.label ≠ []) :
      strip (r.render (c width)) = r.labelled (c width)
        (Frame.line (r.columns (c width) - 4) (strip ((c width).expand r.label))) ++ ['\n'] := by
    obtain ⟨row, seen, -, laid⟩ := strip_render_labelled (c := c width) (r := r) rfl plain
    rw [seen, laid label wide]
  constructor
  · rw [filled 7 (by decide +kernel) (by decide +kernel)]
    decide +kernel
  · rw [filled 5 (by decide +kernel) (by decide +kernel)]
    decide +kernel

/-! ### Rules that show the same -/

namespace Rule

section
variable {c₁ c₂ : Context} (h : c₁.Restyled c₂)
include h

theorem columns_eq (r : Rule) : r.columns c₁ = r.columns c₂ := by
  have width (fallback : ℕ) := h.theme.getOr_eq "rule.width" (by decide)
    Yaml.Value.count? fallback
  have full (fallback : Bool) := h.theme.getOr_eq "rule.width-full" (by decide)
    Yaml.Value.bool? fallback
  rw [columns, columns, width, full, h.width]

theorem mark_eq (r : Rule) : r.mark c₁ = r.mark c₂ := by
  rw [mark, mark, h.theme.getText?_eq "rule.character" (by decide)]

theorem blank_eq (r : Rule) : r.blank c₁ = r.blank c₂ := by
  rw [blank, blank, columns_eq h, mark_eq h]

theorem labelled_eq (r : Rule) (label : Text) : r.labelled c₁ label = r.labelled c₂ label := by
  have alignment : r.alignment c₁ = r.alignment c₂ := by
    rw [Rule.alignment, Rule.alignment, h.theme.getOr_eq "rule.text-align" (by decide)]
  rw [labelled, labelled, columns_eq h, mark_eq h, alignment]

end

theorem labelled_nil_eq_blank_iff {r : Rule} {c : Context} (wide : 5 ≤ r.columns c) :
    r.labelled c [] = r.blank c ↔ r.mark c = ' ' := by
  constructor
  · intro same
    have space : ' ' ∈ r.labelled c [] := by
      rw [labelled]
      cases r.alignment c <;> simp
    rw [same] at space
    exact (List.eq_of_mem_replicate space).symm
  · intro space
    have spaces : ∀ d ∈ r.labelled c [], d = ' ' := by
      rw [labelled, space]
      cases r.alignment c <;> grind
    rw [blank, space]
    exact List.eq_replicate_iff.2 ⟨length_labelled (Nat.zero_le _) wide, spaces⟩

section
variable {c₁ c₂ : Context} (h : c₁.Restyled c₂)
include h

/-- Two rules with other labels and other colors show the same where the same is seen of their
labels, unless one of these is empty and the other only looks so: that one makes a gap in the
line. -/
theorem strip_render_eq_iff {r : Rule} {other : Text} (plain : Plain r.label)
    (plainOther : Plain other) (seen : strip (c₁.expand r.label) = strip (c₂.expand other)) :
    strip (r.render c₁) = strip (Rule.render { r with label := other } c₂) ↔
      (c₁.expand r.label = [] ↔ c₂.expand other = []) ∨ r.columns c₁ < 5 ∨ r.mark c₁ = ' ' := by
  have blank : r.blank c₁ = Rule.blank { r with label := other } c₂ := blank_eq h r
  have labelled (label : Text) :
      r.labelled c₁ label = Rule.labelled { r with label := other } c₂ label :=
    labelled_eq h r label
  have columns : r.columns c₁ = Rule.columns { r with label := other } c₂ := columns_eq h r
  rw [strip_render h.tags₁ plain, strip_render h.tags₂ (r := { r with label := other }) plainOther,
    List.append_cancel_right_eq, row, row, ← columns, ← blank, ← labelled, ← seen]
  by_cases narrow : r.columns c₁ < 5
  · simp [narrow]
  · have gap := labelled_nil_eq_blank_iff (Nat.not_lt.1 narrow)
    have unseen : strip [] = [] := strip_of_notMem List.not_mem_nil
    have uncut : Frame.line (r.columns c₁ - 4) [] = [] := if_pos (Nat.zero_le _)
    -- One label alone is empty in the two middle cases, and nothing is seen of the other.
    by_cases first : c₁.expand r.label = [] <;> by_cases second : c₂.expand other = []
    · simp [first, second]
    · simpa [first, second, narrow, unseen, uncut] using eq_comm.trans gap
    · rw [second, unseen] at seen
      simp [first, second, narrow, seen, uncut, gap]
    · simp [first, second]

end

/-- A tint that only the first theme knows. -/
theorem strip_render_eq_iff_tint :
    let first : Context :=
      { shortcodes := { theme := Theme.builtin.set "colors.tint" (.string "#123456") } }
    let second : Context := { shortcodes := { theme := Theme.builtin } }
    let r : Rule :=
      { label := "[color=tint]ab[/color]".toList, width := some 9, full := some false }
    strip (r.render first) = strip (Rule.render { r with label := "[i]ab[/i]".toList } second) := by
  intro first second r
  have themes : first.theme.SameExcept Theme.stylePaths second.theme := fun path apart =>
    ((Theme.SameExcept.refl Theme.builtin).set (p := "colors") (by decide) (by decide)
      (.string "#123456") path apart).symm
  have contexts : first.Restyled second := ⟨rfl, rfl, themes, rfl⟩
  have labels : first.expand r.label ≠ [] ∧ second.expand "[i]ab[/i]".toList ≠ [] := by
    decide +kernel
  refine (strip_render_eq_iff contexts ⟨by decide, by decide⟩ ⟨by decide, by decide⟩ ?_).2
    (.inl (iff_of_false labels.1 labels.2))
  decide +kernel

/-- A label of styling alone looks like no label, but the line has a gap for it. -/
theorem strip_render_unseen_label :
    let c : Context := { shortcodes := { theme := Theme.builtin }, fixedWidth := some 12 }
    let r : Rule := { label := "[b][/b]".toList }
    (Plain r.label ∧ strip (c.expand r.label) = strip (c.expand [])) ∧
      strip (r.render c) = "──  ────────\n".toList ∧
      strip (Rule.render { r with label := [] } c) = "────────────\n".toList ∧
      strip (r.render c) ≠ strip (Rule.render { r with label := [] } c) := by
  intro c r
  refine ⟨⟨⟨by decide, by decide⟩, ?_⟩, ?_⟩
  · decide +kernel
  · decide +kernel

end Rule

end StyledText

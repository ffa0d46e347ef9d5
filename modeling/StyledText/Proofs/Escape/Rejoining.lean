import StyledText.Output.Mode
import StyledText.Proofs.Escape.Whole

/-!
# Sequences that stripping puts together

Stripping is one pass. What it takes out of a text brings the characters on both sides together,
and they may be a sequence then. This happens exactly where a sequence stands inside the characters
of another.
-/
namespace StyledText.Escape

def HoldsSequence (t : Text) : Prop := ∃ q, IsSequence q ∧ q <:+: t

/-- A sequence of the text stands inside the characters of another. -/
def Interrupted (t : Text) : Prop :=
  ∃ front inside q back joined,
    pieces t = front ++ (inside.map Piece.visible ++ .sequence q :: back) ∧
      inside ≠ [] ∧ joined <+: visibleOf back ∧ IsSequence (inside ++ joined)

/-! ### Sequences are found -/

/-- In front of a sequence the reader takes one, perhaps a longer one. -/
theorem body?_ne_none {body : Text} (h : IsSequence (esc :: body)) (rest : Text) :
    body? (body ++ rest) ≠ none := by
  rw [Option.ne_none_iff_exists']
  by_cases alone : body = [']'] → commandBody? rest = none
  · exact ⟨(body, rest), body?_eq_some_iff.2 ⟨rfl, h, alone⟩⟩
  · rw [Classical.not_imp] at alone
    obtain ⟨rfl, longer⟩ := alone
    obtain ⟨⟨command, left⟩, read⟩ := Option.ne_none_iff_exists'.1 longer
    obtain ⟨rfl, shape⟩ := commandBody?_eq_some_iff.1 read
    have closed : ']' :: command = [']'] → commandBody? left = none :=
      fun opening => absurd (List.cons.inj opening).2 shape.ne_nil
    exact ⟨(']' :: command, left), body?_eq_some_iff.2 ⟨rfl, .command shape, closed⟩⟩

theorem not_prefix_of_body?_eq_none {cs q : Text} (none : body? cs = none) (h : IsSequence q) :
    ¬ q <+: esc :: cs := by
  obtain ⟨body, rfl⟩ := h.exists_body
  rw [List.cons_prefix_cons]
  rintro ⟨-, rest, rfl⟩
  exact body?_ne_none h rest none

theorem not_prefix_of_ne {c : Char} (plain : c ≠ esc) (cs : Text) {q : Text} (h : IsSequence q) :
    ¬ q <+: c :: cs := by
  obtain ⟨body, rfl⟩ := h.exists_body
  rw [List.cons_prefix_cons]
  exact fun first => plain first.1.symm

theorem holdsSequence_cons {c : Char} {cs : Text} (h : ∀ q, IsSequence q → ¬ q <+: c :: cs) :
    HoldsSequence (c :: cs) ↔ HoldsSequence cs := by
  constructor
  · rintro ⟨q, shape, inside⟩
    exact ⟨q, shape, (List.infix_cons_iff.1 inside).resolve_left (h q shape)⟩
  · rintro ⟨q, shape, inside⟩
    exact ⟨q, shape, List.infix_cons inside⟩

theorem strip_sublist (t : Text) : (strip t).Sublist t := by
  fun_induction pieces t with
  | case1 => simp [strip]
  | case2 cs body rest found ih =>
    rw [strip_esc found, ← (body?_append found).1]
    exact (ih.trans (List.sublist_append_right body rest)).cons esc
  | case3 cs none ih =>
    rw [strip_esc_of_none none]
    exact ih.cons_cons esc
  | case4 c cs plain ih =>
    rw [strip_cons_of_ne plain]
    exact ih.cons_cons c

theorem not_holdsSequence_nil : ¬ HoldsSequence [] := by
  rintro ⟨q, shape, inside⟩
  obtain ⟨body, rfl⟩ := shape.exists_body
  exact absurd (List.eq_nil_of_infix_nil inside) (List.cons_ne_nil _ _)

theorem strip_eq_self_iff (t : Text) : strip t = t ↔ ¬ HoldsSequence t := by
  fun_induction pieces t with
  | case1 => exact iff_of_true (strip_of_notMem List.not_mem_nil) not_holdsSequence_nil
  | case2 cs body rest found ih =>
    obtain ⟨rfl, shape, -⟩ := body?_eq_some_iff.1 found
    have shorter := (strip_sublist rest).length_le
    have changed : strip rest ≠ esc :: (body ++ rest) := by
      intro same
      rw [same, List.length_cons, List.length_append] at shorter
      omega
    have held : HoldsSequence (esc :: (body ++ rest)) :=
      ⟨_, shape, (List.prefix_append (esc :: body) rest).isInfix⟩
    rw [strip_esc found]
    exact iff_of_false changed (not_not_intro held)
  | case3 cs none ih =>
    rw [strip_esc_of_none none, holdsSequence_cons fun q => not_prefix_of_body?_eq_none none, ← ih,
      List.cons_inj_right]
  | case4 c cs plain ih =>
    rw [strip_cons_of_ne plain, holdsSequence_cons fun q => not_prefix_of_ne plain cs, ← ih,
      List.cons_inj_right]

/-! ### Sequences that are left -/

theorem Interrupted.of_pieces {s t : Text} {p : Piece} (cut : pieces s = p :: pieces t)
    (h : Interrupted t) : Interrupted s := by
  obtain ⟨front, inside, q, back, joined, behind, some, shown, shape⟩ := h
  exact ⟨p :: front, inside, q, back, joined, by rw [cut, behind, List.cons_append], some, shown,
    shape⟩

theorem exists_first_sequence (ps : List Piece) :
    ∃ run : Text, ps = run.map .visible ∨ ∃ q back, ps = run.map .visible ++ .sequence q :: back := by
  induction ps with
  | nil => exact ⟨[], .inl rfl⟩
  | cons p ps ih =>
    cases p with
    | sequence q => exact ⟨[], .inr ⟨q, ps, rfl⟩⟩
    | visible c =>
      obtain ⟨run, rfl | ⟨q, back, rfl⟩⟩ := ih
      · exact ⟨c :: run, .inl rfl⟩
      · exact ⟨c :: run, .inr ⟨q, back, rfl⟩⟩

/-- The characters behind an ESC that begins no sequence become one only across a sequence that
was taken out. -/
theorem interrupted_of_prefix {cs body : Text} (none : body? cs = none)
    (shape : IsSequence (esc :: body)) (shown : body <+: strip cs) : Interrupted (esc :: cs) := by
  have unread : ¬ body <+: cs := by
    rintro ⟨rest, rfl⟩
    exact body?_ne_none shape rest none
  have source := flatMap_source_pieces cs
  change body <+: visibleOf (pieces cs) at shown
  obtain ⟨run, cut | ⟨q, back, cut⟩⟩ := exists_first_sequence (pieces cs)
  · rw [cut, flatMap_source_visible] at source
    rw [cut, visibleOf_map_visible, source] at shown
    exact absurd shown unread
  · rw [cut, List.flatMap_append, flatMap_source_visible] at source
    rw [cut, visibleOf_append, visibleOf_map_visible, visibleOf_sequence] at shown
    have read : run <+: cs := ⟨_, source⟩
    rcases List.prefix_or_prefix_of_prefix shown (List.prefix_append run _) with early | longer
    · exact absurd (early.trans read) unread
    · obtain ⟨joined, rfl⟩ := longer
      have further := (List.prefix_append_right_inj run).1 shown
      exact ⟨[], esc :: run, q, back, joined, by simp [pieces_esc_of_none none, cut], by simp,
        further, shape⟩

theorem holdsSequence_strip_iff (t : Text) : HoldsSequence (strip t) ↔ Interrupted t := by
  constructor
  · -- the reading is followed up to the ESC of the sequence that is left
    intro held
    fun_induction pieces t with
    | case1 =>
      rw [strip_of_notMem List.not_mem_nil] at held
      exact absurd held not_holdsSequence_nil
    | case2 cs body rest found ih =>
      rw [strip_esc found] at held
      exact (ih held).of_pieces (pieces_esc found)
    | case3 cs none ih =>
      rw [strip_esc_of_none none] at held
      obtain ⟨q, shape, inside⟩ := held
      rcases List.infix_cons_iff.1 inside with first | behind
      · obtain ⟨body, rfl⟩ := shape.exists_body
        exact interrupted_of_prefix none shape (List.cons_prefix_cons.1 first).2
      · exact (ih ⟨q, shape, behind⟩).of_pieces (pieces_esc_of_none none)
    | case4 c cs plain ih =>
      rw [strip_cons_of_ne plain,
        holdsSequence_cons fun q => not_prefix_of_ne plain (strip cs)] at held
      exact (ih held).of_pieces (pieces_cons_of_ne plain cs)
  · rintro ⟨front, inside, q, back, joined, cut, -, ⟨rest, shown⟩, shape⟩
    refine ⟨inside ++ joined, shape, visibleOf front, rest, ?_⟩
    calc visibleOf front ++ (inside ++ joined) ++ rest
        = visibleOf front ++ (inside ++ visibleOf back) := by simp [← shown]
      _ = visibleOf (pieces t) := by simp [cut]

theorem Whole.esc_notMem_strip {t : Text} (h : Whole t) : esc ∉ strip t := by
  intro mem
  obtain ⟨p, shown, visible⟩ := List.mem_filterMap.1 mem
  cases p with
  | sequence q => cases visible
  | visible c =>
    obtain rfl := Option.some.inj visible
    -- a digit behind the ESC would make it a sequence
    have short : body? ['7'] = some (['7'], []) := by decide
    have apart := h _ shown ['7']
    rw [Piece.source, List.singleton_append, pieces_esc short] at apart
    cases (List.cons.inj apart).1

theorem Whole.not_interrupted {t : Text} (h : Whole t) : ¬ Interrupted t := by
  rw [← holdsSequence_strip_iff]
  rintro ⟨q, shape, inside⟩
  obtain ⟨body, rfl⟩ := shape.exists_body
  exact h.esc_notMem_strip (inside.subset List.mem_cons_self)

/-- What is written without escape sequences holds one exactly where a sequence stood inside the
characters of another, whatever the terminal shows. There stripping again takes away more, but in no
whole text. -/
theorem holdsSequence_apply_text_iff (t : Text) (showsColor : Bool) :
    (HoldsSequence (OutputMode.text.apply t showsColor) ↔ Interrupted t) ∧
      (strip (strip t) = strip t ↔ ¬ Interrupted t) ∧ (Whole t → ¬ Interrupted t) := by
  refine ⟨holdsSequence_strip_iff t, ?_, Whole.not_interrupted⟩
  rw [strip_eq_self_iff, holdsSequence_strip_iff]

/-- A reset between the ESC and the bracket of a color. -/
theorem holdsSequence_apply_text_color :
    HoldsSequence (OutputMode.text.apply "\x1b\x1b[m[31m".toList false) ∧
      strip (strip "\x1b\x1b[m[31m".toList) ≠ strip "\x1b\x1b[m[31m".toList := by
  have unread : body? (esc :: "[m[31m".toList) = none := by decide
  have reset : body? "[m[31m".toList = some ("[m".toList, "[31m".toList) := by decide
  have color : body? "[31m".toList = some ("[31m".toList, []) := by decide
  have once : strip "\x1b\x1b[m[31m".toList = esc :: "[31m".toList := by
    calc strip "\x1b\x1b[m[31m".toList
        = esc :: strip (esc :: "[m[31m".toList) := strip_esc_of_none unread
      _ = esc :: strip "[31m".toList := by rw [strip_esc reset]
      _ = esc :: "[31m".toList := by rw [strip_of_notMem (by decide)]
  have twice : strip (esc :: "[31m".toList) = [] := by
    rw [strip_esc color, strip_of_notMem List.not_mem_nil]
  change HoldsSequence (strip _) ∧ _
  rw [once, twice]
  exact ⟨⟨_, (body?_eq_some_iff.1 color).2.1, List.infix_rfl⟩, by decide⟩

end StyledText.Escape

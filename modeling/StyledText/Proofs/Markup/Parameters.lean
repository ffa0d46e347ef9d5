import Mathlib.Data.List.Basic
import StyledText.Markup.Parameters

/-!
# Reading parameters

Blanks are skipped, a quoted value ends at its own mark, and a key followed by `=` takes the
value behind it. A new key goes to the end of the named parameters. All that is read are
characters of the input.
-/
namespace StyledText.Markup

theorem takeValue_quoted {mark : Char} (isMark : mark = '"' ∨ mark = '\'') {text : Text}
    (absent : mark ∉ text) (rest : Text) :
    takeValue (mark :: (text ++ mark :: rest)) = (text, rest) := by
  have inside : ∀ c ∈ text, (c != mark) = true := by
    intro c hc
    rw [bne_iff_ne]
    rintro rfl
    exact absent hc
  rw [takeValue, if_pos isMark, List.takeWhile_append_of_pos inside,
    List.dropWhile_append_of_pos inside]
  simp

namespace Parameters

theorem put_of_notMem {key : Text} {entries : List (Text × Text)}
    (h : key ∉ entries.map Prod.fst) (value : Text) :
    put key value entries = entries ++ [(key, value)] := by
  induction entries with
  | nil => rfl
  | cons entry rest ih =>
    obtain ⟨k, v⟩ := entry
    simp only [List.map_cons, List.mem_cons, not_or] at h
    rw [put, if_neg (Ne.symm h.1), ih h.2, List.cons_append]

theorem absorb_of_trimStart_nil {t : Text} (h : Text.trimStart t = []) (p : Parameters) :
    absorb p t = p := by
  rw [absorb.eq_def]
  split
  · rfl
  · next c cs cons =>
    rw [h] at cons
    exact absurd cons (by simp)

theorem absorb_of_trimStart_cons {t cs : Text} {c : Char} (h : Text.trimStart t = c :: cs)
    (p : Parameters) : absorb p t = absorb (p.step c cs).1 (p.step c cs).2 := by
  rw [absorb.eq_def]
  split
  · next nil =>
    rw [h] at nil
    exact absurd nil (by simp)
  · next d ds cons =>
    rw [h, List.cons.injEq] at cons
    rw [cons.1, cons.2]

theorem step_key {c : Char} {cs : Text} (key : ∀ d ∈ c :: cs, isWordChar d)
    (unquoted : ¬ (c = '"' ∨ c = '\'')) (p : Parameters) (value : Text) :
    p.step c (cs ++ '=' :: value) =
      (p.insert (c :: cs) (takeValue value).1, (takeValue value).2) := by
  have inside : ∀ d ∈ cs, isWordChar d := fun d hd => key d (by simp [hd])
  have stop : isWordChar '=' = false := by decide
  have hc : c ≠ '=' := by
    rintro rfl
    exact absurd (key '=' (by simp)) (by simp [stop])
  rw [step, if_neg unquoted, if_neg hc, List.takeWhile_append_of_pos inside,
    List.dropWhile_append_of_pos inside]
  simp [stop]

/-- One blank, a key, `=` and a quoted value add the value under the key. -/
theorem absorb_entry {key : Text} (nonempty : key ≠ [])
    (plain : ∀ c ∈ key, isWordChar c ∧ c ≠ '"' ∧ c ≠ '\'') {mark : Char}
    (isMark : mark = '"' ∨ mark = '\'') {text : Text} (absent : mark ∉ text) (p : Parameters)
    (rest : Text) :
    absorb p (' ' :: (key ++ '=' :: mark :: (text ++ mark :: rest))) =
      absorb (p.insert key text) rest := by
  obtain ⟨c, cs, rfl⟩ := List.exists_cons_of_ne_nil nonempty
  obtain ⟨word, double, single⟩ := plain c (by simp)
  have blank : Text.isBlank c = false := by
    simp only [isWordChar, Bool.and_eq_true, Bool.not_eq_true'] at word
    exact word.2
  have space : Text.isBlank ' ' = true := by decide
  have trimmed : Text.trimStart (' ' :: (c :: cs ++ '=' :: mark :: (text ++ mark :: rest))) =
      c :: (cs ++ '=' :: mark :: (text ++ mark :: rest)) := by
    simp [Text.trimStart, space, blank]
  rw [absorb_of_trimStart_cons trimmed,
    step_key (fun d hd => (plain d hd).1) (by simp [double, single]),
    takeValue_quoted isMark absent]

/-! ### Characters of the input -/

/-- Keys and values hold no characters but those of the text. -/
structure Within (t : Text) (p : Parameters) : Prop where
  unnamed : ∀ value ∈ p.unnamed, value ⊆ t
  named : ∀ entry ∈ p.named, entry.1 ⊆ t ∧ entry.2 ⊆ t

theorem takeValue_subset (t : Text) : (takeValue t).1 ⊆ t ∧ (takeValue t).2 ⊆ t := by
  cases t with
  | nil => simp [takeValue]
  | cons c cs =>
    rw [takeValue]
    split
    · exact ⟨List.subset_cons_of_subset c (List.takeWhile_sublist _).subset,
        List.subset_cons_of_subset c
          (List.Subset.trans (List.drop_subset 1 _) (List.dropWhile_sublist _).subset)⟩
    · exact ⟨(List.takeWhile_sublist _).subset, (List.dropWhile_sublist _).subset⟩

theorem within_insert {t key value : Text} {p : Parameters} (h : p.Within t) (hkey : key ⊆ t)
    (hvalue : value ⊆ t) : (p.insert key value).Within t := by
  refine ⟨h.unnamed, ?_⟩
  have entries := h.named
  simp only [insert]
  generalize p.named = named at entries ⊢
  induction named with
  | nil =>
    intro entry mem
    rw [put, List.mem_singleton] at mem
    subst mem
    exact ⟨hkey, hvalue⟩
  | cons first rest ih =>
    obtain ⟨k, v⟩ := first
    have others : ∀ entry ∈ rest, entry.1 ⊆ t ∧ entry.2 ⊆ t :=
      fun entry mem => entries entry (List.mem_cons_of_mem _ mem)
    intro entry mem
    rw [put] at mem
    split at mem
    · rcases List.mem_cons.1 mem with rfl | mem
      · exact ⟨(entries _ List.mem_cons_self).1, hvalue⟩
      · exact others entry mem
    · rcases List.mem_cons.1 mem with rfl | mem
      · exact entries _ List.mem_cons_self
      · exact ih others entry mem

theorem within_pushBare {t word : Text} {p : Parameters} (h : p.Within t) (hword : word ⊆ t) :
    (p.pushBare word).Within t := by
  rw [pushBare]
  split
  · refine ⟨?_, h.named⟩
    intro value mem
    rw [setUnnamed, Option.mem_some_iff] at mem
    rwa [← mem]
  · exact within_insert h hword (List.nil_subset t)

theorem within_step {t cs : Text} {c : Char} {p : Parameters} (h : p.Within t)
    (ht : c :: cs ⊆ t) : (p.step c cs).1.Within t ∧ (p.step c cs).2 ⊆ t := by
  have behind {s : Text} (inside : s ⊆ cs) : s ⊆ t :=
    List.Subset.trans inside (List.Subset.trans (List.subset_cons_self c cs) ht)
  have first := takeValue_subset (c :: cs)
  have word : c :: cs.takeWhile isWordChar ⊆ t :=
    List.cons_subset.2 ⟨ht List.mem_cons_self, behind (List.takeWhile_sublist _).subset⟩
  have rest : cs.dropWhile isWordChar ⊆ t := behind (List.dropWhile_sublist _).subset
  simp only [step]
  split
  · exact ⟨within_pushBare h (List.Subset.trans first.1 ht), List.Subset.trans first.2 ht⟩
  · split
    · have value := takeValue_subset cs
      refine ⟨?_, behind value.2⟩
      split
      · exact h
      · exact within_pushBare h (behind value.1)
    · split
      · next more found =>
        rw [found] at rest
        have value := takeValue_subset more
        have inside : more ⊆ t := List.Subset.trans (List.subset_cons_self '=' more) rest
        exact ⟨within_insert h word (List.Subset.trans value.1 inside),
          List.Subset.trans value.2 inside⟩
      · exact ⟨within_pushBare h word, rest⟩

theorem within_absorb {t input : Text} {p : Parameters} (h : p.Within t) (ht : input ⊆ t) :
    (p.absorb input).Within t := by
  fun_induction absorb p input with
  | case1 p input blank => exact h
  | case2 p input c cs trimmed ih =>
    have inside : c :: cs ⊆ t := by
      rw [← trimmed]
      exact List.Subset.trans (List.dropWhile_sublist _).subset ht
    have step := within_step h inside
    exact ih step.1 step.2

theorem within_parse (t : Text) : (parse t).Within t := by
  have none : ({} : Parameters).Within t := ⟨by simp, by simp⟩
  rw [parse.eq_def]
  split
  · next rest =>
    have value := takeValue_subset rest
    have inside : rest ⊆ '=' :: rest := List.subset_cons_self '=' rest
    refine within_absorb ⟨?_, by simp⟩ (List.Subset.trans value.2 inside)
    intro v mem
    rw [Option.mem_some_iff] at mem
    rw [← mem]
    exact List.Subset.trans value.1 inside
  · exact within_absorb none (List.Subset.refl t)

end Parameters
end StyledText.Markup

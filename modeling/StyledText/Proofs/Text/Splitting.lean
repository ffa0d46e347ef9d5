import Mathlib.Data.List.Basic
import StyledText.Text.Basic

/-!
# Splitting, joining and trimming

Pieces that do not hold the separator come back from the text that joins them. What is trimmed off
the end of a text stands behind what is kept.
-/
namespace StyledText.Text

theorem splitAt_ne_nil (separator : Char) (t : Text) : splitAt separator t ≠ [] := by
  cases t with
  | nil => simp [splitAt]
  | cons c cs =>
    rw [splitAt]
    split
    · exact List.cons_ne_nil _ _
    · split <;> exact List.cons_ne_nil _ _

theorem splitAt_of_notMem {separator : Char} {t : Text} (h : separator ∉ t) :
    splitAt separator t = [t] := by
  induction t with
  | nil => rfl
  | cons c cs ih =>
    rw [List.mem_cons, not_or] at h
    rw [splitAt, if_neg (Ne.symm h.1), ih h.2]

theorem splitAt_append_cons {separator : Char} {t : Text} (h : separator ∉ t) (rest : Text) :
    splitAt separator (t ++ separator :: rest) = t :: splitAt separator rest := by
  induction t with
  | nil => simp [splitAt]
  | cons c cs ih =>
    rw [List.mem_cons, not_or] at h
    rw [List.cons_append, splitAt, if_neg (Ne.symm h.1), ih h.2]

theorem splitAt_join {separator : Char} {ts : List Text} (nonempty : ts ≠ [])
    (h : ∀ t ∈ ts, separator ∉ t) : splitAt separator (join [separator] ts) = ts := by
  induction ts with
  | nil => exact absurd rfl nonempty
  | cons t ts ih =>
    have first := h t List.mem_cons_self
    cases ts with
    | nil => exact splitAt_of_notMem first
    | cons u us =>
      have rest := ih (by simp) fun t mem => h t (List.mem_cons_of_mem _ mem)
      rw [join, List.append_assoc, List.singleton_append, splitAt_append_cons first, rest]
      simp

theorem join_cons {separator t : Text} {ts : List Text} (nonempty : ts ≠ []) :
    join separator (t :: ts) = t ++ separator ++ join separator ts := join.eq_3 _ _ _ nonempty

theorem join_append {separator : Text} {ts us : List Text} (ht : ts ≠ []) (hu : us ≠ []) :
    join separator (ts ++ us) = join separator ts ++ separator ++ join separator us := by
  induction ts with
  | nil => exact absurd rfl ht
  | cons t ts ih =>
    cases ts with
    | nil => exact join_cons hu
    | cons next ts =>
      have nonempty := List.cons_ne_nil next ts
      rw [List.cons_append, join_cons (by simp), ih nonempty, join_cons nonempty]
      simp only [List.append_assoc]

theorem join_replicate_nil (c : Char) (n : ℕ) :
    join [c] (List.replicate n [] ++ [[]]) = List.replicate n c := by
  induction n with
  | zero => rfl
  | succ n ih =>
    rw [List.replicate_succ, List.cons_append, join_cons (by simp), ih]
    rfl

theorem mem_join {separator : Text} {ts : List Text} {c : Char}
    (h : c ∈ join separator ts) : c ∈ separator ∨ ∃ t ∈ ts, c ∈ t := by
  fun_induction join separator ts with
  | case1 => simp at h
  | case2 t => exact .inr ⟨t, by simp, h⟩
  | case3 t ts more ih =>
    rw [List.mem_append, List.mem_append] at h
    rcases h with (first | between) | rest
    · exact .inr ⟨t, List.mem_cons_self, first⟩
    · exact .inl between
    · refine (ih rest).imp_right ?_
      rintro ⟨u, mem, inside⟩
      exact ⟨u, List.mem_cons_of_mem t mem, inside⟩

theorem stripStart?_append (start t : Text) : stripStart? start (start ++ t) = some t := by
  induction start with
  | nil => rfl
  | cons c cs ih => simp [stripStart?, ih]

theorem stripEnd?_append (t stop : Text) : stripEnd? stop (t ++ stop) = some t := by
  simp [stripEnd?, stripStart?_append]

theorem append_of_stripStart? {start t rest : Text} (h : stripStart? start t = some rest) :
    start ++ rest = t := by
  fun_induction stripStart? start t with
  | case1 t => simpa using h.symm
  | case2 => exact nomatch h
  | case3 c start t ih => rw [List.cons_append, ih h]
  | case4 => exact nomatch h

theorem stripEnd?_eq_some_iff {stop t rest : Text} :
    stripEnd? stop t = some rest ↔ t = rest ++ stop := by
  constructor
  · intro h
    obtain ⟨reversed, found, rfl⟩ := Option.map_eq_some_iff.1 h
    have joined := congrArg List.reverse (append_of_stripStart? found)
    simpa using joined.symm
  · rintro rfl
    exact stripEnd?_append rest stop

/-! ### Cutting where a class of characters ends -/

section
variable {p : Char → Bool} {front back : Text} (inside : ∀ c ∈ front, p c)
  (stop : ∀ c ∈ back.head?, ¬ p c)
include inside stop

theorem takeWhile_append_of_head? : (front ++ back).takeWhile p = front := by
  rw [List.takeWhile_append_of_pos inside]
  cases back with
  | nil => simp
  | cons c cs => rw [List.takeWhile_cons_of_neg (stop c rfl), List.append_nil]

theorem dropWhile_append_of_head? : (front ++ back).dropWhile p = back := by
  rw [List.dropWhile_append_of_pos inside]
  cases back with
  | nil => rfl
  | cons c cs => rw [List.dropWhile_cons_of_neg (stop c rfl)]

end

/-! ### Trimming -/

theorem trimEnd_append_of_blank {blanks : Text} (h : ∀ c ∈ blanks, isBlank c) (t : Text) :
    trimEnd (t ++ blanks) = trimEnd t := by
  have reversed : ∀ c ∈ blanks.reverse, isBlank c := by simpa using h
  rw [trimEnd, trimEnd, dropEndWhile, dropEndWhile, List.reverse_append,
    List.dropWhile_append_of_pos reversed]

/-- What is trimmed off is blank. -/
theorem exists_eq_trimEnd_append (t : Text) :
    ∃ blanks, t = trimEnd t ++ blanks ∧ ∀ c ∈ blanks, isBlank c := by
  refine ⟨(t.reverse.takeWhile isBlank).reverse, ?_, fun c mem => ?_⟩
  · rw [trimEnd, dropEndWhile, ← List.reverse_append, List.takeWhile_append_dropWhile,
      List.reverse_reverse]
  · exact List.all_eq_true.1 List.all_takeWhile c (List.mem_reverse.1 mem)

end StyledText.Text

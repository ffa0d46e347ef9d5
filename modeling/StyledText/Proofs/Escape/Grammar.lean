import Mathlib.Data.List.TakeWhile
import StyledText.Escape.Sequence
import StyledText.Proofs.Text.Splitting

/-!
# The grammar of escape sequences

Behind an ESC the reader takes exactly what makes a sequence of one of the three kinds. The opening
of a command is a sequence of two characters only where no command follows. An ESC inside a
sequence stands in front of its last character, so a text falls apart into sequences and characters
in front of an ESC that no backslash follows.
-/
namespace StyledText.Escape

/-- What stands behind `ESC [`. -/
def IsControlBody (body : Text) : Prop :=
  ∃ parameters intermediates final, body = parameters ++ intermediates ++ [final] ∧
    (∀ c ∈ parameters, isParameter c) ∧ (∀ c ∈ intermediates, isIntermediate c) ∧ isFinal final

/-- What stands behind `ESC ]`. -/
def IsCommandBody (body : Text) : Prop :=
  ∃ command, (∀ c ∈ command, isCommandChar c) ∧
    (body = command ++ [bel] ∨ body = command ++ [esc, '\\'])

inductive IsSequence : Text → Prop
  | control {body : Text} (shape : IsControlBody body) : IsSequence (esc :: '[' :: body)
  | command {body : Text} (shape : IsCommandBody body) : IsSequence (esc :: ']' :: body)
  | short {c : Char} (second : isSecond c) : IsSequence [esc, c]

theorem IsSequence.exists_body {q : Text} (h : IsSequence q) : ∃ body, q = esc :: body := by
  cases h <;> exact ⟨_, rfl⟩

/-! ### Reading bodies -/

theorem outside_of_between {c low high low' high' : Char} (h : low ≤ c && c ≤ high)
    (apart : ¬ low' ≤ high ∨ ¬ low ≤ high') : (decide (low' ≤ c) && decide (c ≤ high')) = false := by
  simp only [Bool.and_eq_true, decide_eq_true_eq] at h
  by_contra inside
  simp only [Bool.not_eq_false, Bool.and_eq_true, decide_eq_true_eq] at inside
  rcases apart with below | above
  · exact below (Char.le_trans inside.1 h.2)
  · exact above (Char.le_trans h.1 inside.2)

theorem isParameter_of_isIntermediate {c : Char} (h : isIntermediate c) : isParameter c = false :=
  outside_of_between h (by decide)

theorem isParameter_of_isFinal {c : Char} (h : isFinal c) : isParameter c = false :=
  outside_of_between h (by decide)

theorem isIntermediate_of_isFinal {c : Char} (h : isFinal c) : isIntermediate c = false :=
  outside_of_between h (by decide)

theorem controlBody?_eq_some_iff {cs body rest : Text} :
    controlBody? cs = some (body, rest) ↔ cs = body ++ rest ∧ IsControlBody body := by
  constructor
  · intro h
    refine ⟨(controlBody?_append h).symm, ?_⟩
    simp only [controlBody?] at h
    split at h
    · next final more found =>
      simp only [Option.ite_none_right_eq_some, Option.some.injEq, Prod.mk.injEq] at h
      obtain ⟨isFinal, rfl, -⟩ := h
      exact ⟨_, _, final, rfl, fun c => List.mem_takeWhile_imp, fun c => List.mem_takeWhile_imp,
        isFinal⟩
    · cases h
  · rintro ⟨rfl, parameters, intermediates, final, rfl, isParameters, isIntermediates, isFinal⟩
    have notParameter : ∀ c ∈ (intermediates ++ final :: rest).head?, ¬ isParameter c := by
      intro c first
      cases intermediates with
      | nil =>
        obtain rfl := Option.some.inj first
        simp [isParameter_of_isFinal isFinal]
      | cons d ds =>
        obtain rfl := Option.some.inj first
        simp [isParameter_of_isIntermediate (isIntermediates _ List.mem_cons_self)]
    have notIntermediate : ∀ c ∈ (final :: rest).head?, ¬ isIntermediate c := by
      intro c first
      obtain rfl := Option.some.inj first
      simp [isIntermediate_of_isFinal isFinal]
    simp [controlBody?, Text.takeWhile_append_of_head? isParameters notParameter,
      Text.dropWhile_append_of_head? isParameters notParameter,
      Text.takeWhile_append_of_head? isIntermediates notIntermediate,
      Text.dropWhile_append_of_head? isIntermediates notIntermediate, isFinal]

theorem commandBody?_eq_some_iff {cs body rest : Text} :
    commandBody? cs = some (body, rest) ↔ cs = body ++ rest ∧ IsCommandBody body := by
  constructor
  · intro h
    refine ⟨(commandBody?_append h).symm, cs.takeWhile isCommandChar,
      fun c => List.mem_takeWhile_imp, ?_⟩
    simp only [commandBody?] at h
    split at h
    · exact .inl (Prod.mk.inj (Option.some.inj h)).1.symm
    · exact .inr (Prod.mk.inj (Option.some.inj h)).1.symm
    · cases h
  · have stop : isCommandChar esc = false ∧ isCommandChar bel = false := by decide
    rintro ⟨rfl, command, inside, rfl | rfl⟩
    · have notInside : ∀ c ∈ (bel :: rest).head?, ¬ isCommandChar c := by simp [stop.2]
      rw [List.append_assoc, List.singleton_append, commandBody?,
        Text.takeWhile_append_of_head? inside notInside,
        Text.dropWhile_append_of_head? inside notInside]
      rfl
    · have notInside : ∀ c ∈ (esc :: '\\' :: rest).head?, ¬ isCommandChar c := by simp [stop.1]
      rw [List.append_assoc, List.cons_append, List.singleton_append, commandBody?,
        Text.takeWhile_append_of_head? inside notInside,
        Text.dropWhile_append_of_head? inside notInside]
      rfl

theorem IsControlBody.esc_notMem {body : Text} (h : IsControlBody body) : esc ∉ body := by
  obtain ⟨parameters, intermediates, final, rfl, isParameters, isIntermediates, isFinal⟩ := h
  intro mem
  simp only [List.mem_append, List.mem_singleton] at mem
  rcases mem with (parameter | intermediate) | rfl
  · exact absurd (isParameters esc parameter) (by decide)
  · exact absurd (isIntermediates esc intermediate) (by decide)
  · exact absurd isFinal (by decide)

theorem IsCommandBody.ne_nil {body : Text} (h : IsCommandBody body) : body ≠ [] := by
  obtain ⟨command, -, rfl | rfl⟩ := h <;> simp

/-- Behind an ESC the reader takes the rest of a sequence, and the opening of a command alone only
where no command follows. -/
theorem body?_eq_some_iff {cs body rest : Text} :
    body? cs = some (body, rest) ↔
      cs = body ++ rest ∧ IsSequence (esc :: body) ∧
        (body = [']'] → commandBody? rest = none) := by
  constructor
  · intro h
    refine ⟨(body?_append h).1.symm, ?_⟩
    cases cs with
    | nil => exact nomatch h
    | cons c cs =>
      simp only [body?] at h
      split at h
      · next bracket =>
        obtain ⟨⟨control, left⟩, read, taken⟩ := Option.map_eq_some_iff.1 h
        obtain ⟨rfl, rfl⟩ := Prod.mk.inj taken
        subst bracket
        exact ⟨.control (controlBody?_eq_some_iff.1 read).2, by simp⟩
      · split at h
        · next bracket =>
          subst bracket
          split at h
          · next command left read =>
            obtain ⟨rfl, rfl⟩ := Prod.mk.inj (Option.some.inj h)
            have shape := (commandBody?_eq_some_iff.1 read).2
            exact ⟨.command shape, fun alone => absurd (List.cons.inj alone).2 shape.ne_nil⟩
          · next none =>
            simp only [Option.ite_none_right_eq_some, Option.some.injEq, Prod.mk.injEq] at h
            obtain ⟨second, rfl, rfl⟩ := h
            exact ⟨.short second, fun _ => none⟩
        · next bracket =>
          simp only [Option.ite_none_right_eq_some, Option.some.injEq, Prod.mk.injEq] at h
          obtain ⟨second, rfl, rfl⟩ := h
          exact ⟨.short second, fun alone => absurd (List.cons.inj alone).1 bracket⟩
  · rintro ⟨rfl, shape, alone⟩
    cases shape with
    | control shape => simp [body?, controlBody?_eq_some_iff.2 ⟨rfl, shape⟩]
    | command shape => simp [body?, commandBody?_eq_some_iff.2 ⟨rfl, shape⟩]
    | @short c second =>
      have notControl : c ≠ '[' := by
        rintro rfl
        exact absurd second (by decide)
      by_cases bracket : c = ']'
      · subst bracket
        simp [body?, alone rfl, second]
      · simp [body?, notControl, bracket, second]

/-! ### Where sequences end -/

/-- An ESC behind the first stands in front of the last character, which is a backslash. -/
theorem IsSequence.esc_behind {body front back : Text} (h : IsSequence (esc :: body))
    (inside : body = front ++ esc :: back) : back = ['\\'] := by
  have mem : esc ∈ body := by simp [inside]
  cases h with
  | control shape =>
    rw [List.mem_cons] at mem
    exact absurd (mem.resolve_left (by decide)) shape.esc_notMem
  | @command command shape =>
    obtain ⟨text, isText, ended⟩ := shape
    have free : esc ∉ text := fun occurs => absurd (isText esc occurs) (by decide)
    have notBracket : esc ≠ ']' := by decide
    have notBel : esc ≠ bel := by decide
    have opening : esc ∉ ']' :: text := by simp [notBracket, free]
    rcases ended with rfl | rfl
    · simp [notBracket, notBel, free] at mem
    · have behind : esc ∉ ['\\'] := by decide
      rw [← List.cons_append, List.append_cons_inj_of_notMem opening behind] at inside
      exact inside.2.2.symm
  | short second =>
    rw [List.mem_singleton] at mem
    subst mem
    exact absurd second (by decide)

/-- A sequence in front of other text ends before an ESC that no backslash follows. -/
theorem IsSequence.ends_before {body left cs rest : Text} {c : Char} (h : IsSequence (esc :: body))
    (other : c ≠ '\\') (same : cs ++ esc :: c :: rest = body ++ left) :
    ∃ inside, cs = body ++ inside ∧ left = inside ++ esc :: c :: rest := by
  rcases List.append_eq_append_iff.1 same with ⟨more, rfl, found⟩ | ⟨inside, rfl, rfl⟩
  · cases more with
    | nil => exact ⟨[], by simp, by simpa using found.symm⟩
    | cons d more =>
      obtain ⟨rfl, behind⟩ := List.cons.inj found
      obtain rfl : more = ['\\'] := h.esc_behind rfl
      exact absurd (List.cons.inj behind).1 other
  · exact ⟨inside, rfl, rfl⟩

theorem commandBody?_append_esc_eq_none_iff {c : Char} (other : c ≠ '\\') (cs rest : Text) :
    commandBody? (cs ++ esc :: c :: rest) = none ↔ commandBody? cs = none := by
  constructor
  · intro none
    by_contra found
    obtain ⟨⟨body, left⟩, read⟩ := Option.ne_none_iff_exists'.1 found
    obtain ⟨rfl, shape⟩ := commandBody?_eq_some_iff.1 read
    rw [List.append_assoc, commandBody?_eq_some_iff.2 ⟨rfl, shape⟩] at none
    exact nomatch none
  · intro none
    by_contra found
    obtain ⟨⟨body, left⟩, read⟩ := Option.ne_none_iff_exists'.1 found
    obtain ⟨same, shape⟩ := commandBody?_eq_some_iff.1 read
    have opened : ']' :: cs ++ esc :: c :: rest = ']' :: body ++ left := by
      rw [List.cons_append, same, List.cons_append]
    obtain ⟨inside, split, -⟩ := (IsSequence.command shape).ends_before other opened
    rw [commandBody?_eq_some_iff.2 ⟨(List.cons.inj split).2, shape⟩] at none
    exact nomatch none

/-- Reading stops at an ESC that no backslash follows. -/
theorem body?_append_esc {c : Char} (other : c ≠ '\\') (cs rest : Text) :
    body? (cs ++ esc :: c :: rest) =
      (body? cs).map fun (body, left) => (body, left ++ esc :: c :: rest) := by
  rcases read : body? cs with _ | ⟨body, left⟩
  · rw [Option.map_none, Option.eq_none_iff_forall_ne_some]
    rintro ⟨body, left⟩ found
    obtain ⟨same, shape, alone⟩ := body?_eq_some_iff.1 found
    obtain ⟨inside, rfl, rfl⟩ := shape.ends_before other same
    have again : body? (body ++ inside) = some (body, inside) :=
      body?_eq_some_iff.2 ⟨rfl, shape, fun opening =>
        (commandBody?_append_esc_eq_none_iff other inside rest).1 (alone opening)⟩
    exact nomatch read.symm.trans again
  · obtain ⟨rfl, shape, alone⟩ := body?_eq_some_iff.1 read
    exact body?_eq_some_iff.2 ⟨List.append_assoc .., shape, fun opening =>
      (commandBody?_append_esc_eq_none_iff other left rest).2 (alone opening)⟩

end StyledText.Escape

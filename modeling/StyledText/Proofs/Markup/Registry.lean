import Mathlib.Data.List.Induction
import StyledText.Markup.Registry

/-!
# Looking handlers up

A registry made from a list knows every valid name in it, and holds the handler that was listed
last. Leaving names out of a registry changes nothing for the others.
-/
namespace StyledText.Markup.Registry

variable {C : Type}

theorem lookup_cons_eq (name key : Text) (handler : Handler C) (rest : List (Text × Handler C)) :
    ((key, handler) :: rest).lookup name =
      if name = key then some handler else rest.lookup name := by
  by_cases h : name = key
  · simp [h]
  · have different : (name == key) = false := by simpa using h
    simp [List.lookup_cons, h, different]

theorem lookup_put (name key : Text) (handler : Handler C) (entries : List (Text × Handler C)) :
    (put key handler entries).lookup name =
      if name = key then some handler else entries.lookup name := by
  induction entries with
  | nil => exact lookup_cons_eq name key handler []
  | cons entry rest ih =>
    obtain ⟨k, old⟩ := entry
    rw [put]
    split
    · next same =>
      subst same
      rw [lookup_cons_eq, lookup_cons_eq]
      split <;> rfl
    · next different =>
      split
      · rw [lookup_cons_eq]
      · rw [lookup_cons_eq, ih, lookup_cons_eq]
        by_cases first : name = k
        · have other : name ≠ key := fun e => different (e.symm.trans first)
          rw [if_pos first, if_neg other, if_pos first]
        · rw [if_neg first, if_neg first]

theorem register_eq (r : Registry C) (name : Text) (handler : Handler C) :
    r.register name handler =
      if isName name then .ok ⟨put name handler r.entries⟩ else .error (.invalidName name) := by
  rw [register, exchange]
  split <;> rfl

theorem get?_register (r : Registry C) (name key : Text) (handler : Handler C) :
    ((r.register key handler).toOption.getD r).get? name =
      if isName key ∧ name = key then some handler else r.get? name := by
  cases valid : isName key with
  | true =>
    have found := lookup_put name key handler r.entries
    simpa [register_eq, valid, get?, Except.toOption] using found
  | false => simp [register_eq, valid, Except.toOption]

theorem get?_ofList (handlers : List (Text × Handler C)) (name : Text) :
    (ofList handlers).get? name =
      if isName name then handlers.reverse.lookup name else none := by
  induction handlers using List.reverseRecOn with
  | nil => simp [ofList, get?, empty]
  | append_singleton handlers entry ih =>
    obtain ⟨key, handler⟩ := entry
    have last : ofList (handlers ++ [(key, handler)]) =
        ((ofList handlers).register key handler).toOption.getD (ofList handlers) := by
      simp [ofList]
    rw [last, get?_register, ih, List.reverse_append, List.reverse_singleton,
      List.singleton_append, lookup_cons_eq]
    by_cases same : name = key
    · subst same
      cases isName name <;> simp
    · simp [same]

theorem mem_of_get?_ofList {handlers : List (Text × Handler C)} {name : Text}
    {handler : Handler C} (h : (ofList handlers).get? name = some handler) :
    (name, handler) ∈ handlers := by
  rw [get?_ofList] at h
  split at h
  · obtain ⟨before, after, split, -⟩ := List.lookup_eq_some_iff.1 h
    rw [← List.mem_reverse, split]
    simp
  · exact nomatch h

/-- The registry without the names that `keep` refuses. -/
def restrict (r : Registry C) (keep : Text → Bool) : Registry C :=
  ⟨r.entries.filter fun entry => keep entry.1⟩

theorem get?_restrict (r : Registry C) (keep : Text → Bool) (name : Text) :
    (r.restrict keep).get? name = if keep name then r.get? name else none := by
  obtain ⟨entries⟩ := r
  simp only [restrict, get?]
  induction entries with
  | nil => simp
  | cons entry rest ih =>
    obtain ⟨key, handler⟩ := entry
    rw [lookup_cons_eq]
    cases kept : keep key with
    | true =>
      rw [List.filter_cons, if_pos kept, lookup_cons_eq, ih]
      split
      · next same => rw [same, if_pos kept]
      · rfl
    | false =>
      rw [List.filter_cons, if_neg (by simp [kept]), ih]
      split
      · next keepsName =>
        have different : name ≠ key := by
          rintro rfl
          rw [kept] at keepsName
          exact nomatch keepsName
        rw [if_neg different]
      · rfl

end StyledText.Markup.Registry

import StyledText.Proofs.Yaml.Equality

/-!
# Entries of mappings

What is put under a key is found under every equal key, and all else stays in its place.
-/
namespace StyledText.Yaml

open Value

/-- The keys of the entries differ, and so do those in every mapping inside. -/
structure Entries.WellKeyed (entries : Entries) : Prop where
  differ : entries.KeysDiffer
  keys : ∀ e ∈ entries, e.1.WellKeyed
  values : ∀ e ∈ entries, e.2.WellKeyed

theorem Value.wellKeyed_mapping_iff {entries : Entries} :
    (Value.mapping entries).WellKeyed ↔ entries.WellKeyed := by
  constructor
  · intro h
    cases h with
    | mapping differ keys values => exact ⟨differ, keys, values⟩
  · intro h
    exact .mapping h.differ h.keys h.values

namespace Entries

theorem wellKeyed_nil : WellKeyed [] := ⟨.nil, by simp, by simp⟩

theorem wellKeyed_cons_iff {e : Value × Value} {rest : Entries} :
    WellKeyed (e :: rest) ↔
      ((∀ f ∈ rest, e.1.same f.1 = false) ∧ e.1.WellKeyed ∧ e.2.WellKeyed) ∧ rest.WellKeyed := by
  constructor
  · rintro ⟨differ, keys, values⟩
    rw [List.forall_mem_cons] at keys values
    obtain ⟨apart, differ⟩ := List.pairwise_cons.1 differ
    exact ⟨⟨apart, keys.1, values.1⟩, differ, keys.2, values.2⟩
  · rintro ⟨⟨apart, key, value⟩, rest⟩
    exact ⟨List.pairwise_cons.2 ⟨apart, rest.differ⟩, List.forall_mem_cons.2 ⟨key, rest.keys⟩,
      List.forall_mem_cons.2 ⟨value, rest.values⟩⟩

/-! ### Finding -/

@[simp] theorem get?_nil (key : Value) : get? key [] = none := rfl

theorem get?_cons (key first value : Value) (rest : Entries) :
    get? key ((first, value) :: rest) =
      if key.same first then some value else get? key rest := by
  cases same : key.same first <;> simp [get?, same]

theorem get?_eq_none_iff {key : Value} {entries : Entries} :
    get? key entries = none ↔ ∀ e ∈ entries, ¬ key.same e.1 = true := by
  rw [get?, Option.map_eq_none_iff, List.find?_eq_none]

theorem exists_mem_of_get? {key value : Value} {entries : Entries}
    (h : get? key entries = some value) : ∃ found, (found, value) ∈ entries := by
  obtain ⟨⟨found, value⟩, first, rfl⟩ := Option.map_eq_some_iff.1 h
  exact ⟨found, List.mem_of_find?_eq_some first⟩

theorem get?_of_mem {entries : Entries} (h : entries.WellKeyed) {e : Value × Value}
    (mem : e ∈ entries) : get? e.1 entries = some e.2 := by
  have key := h.keys e mem
  have found := equivalenceOn_wellKeyed.find?_of_mem h.differ h.keys key mem
    (equivalenceOn_wellKeyed.refl key)
  rw [get?, found, Option.map_some]

theorem wellKeyed_of_get? {entries : Entries} (h : entries.WellKeyed) {key : Value} :
    ∀ v ∈ get? key entries, v.WellKeyed := by
  intro v found
  obtain ⟨other, mem⟩ := exists_mem_of_get? found
  exact h.values (other, v) mem

/-- Equal keys lead to the same value. -/
theorem get?_congr {key other : Value} (hk : key.WellKeyed) (ho : other.WellKeyed)
    (same : key.same other = true) {entries : Entries} (keys : ∀ e ∈ entries, e.1.WellKeyed) :
    get? key entries = get? other entries := by
  induction entries with
  | nil => rfl
  | cons e rest ih =>
    obtain ⟨first, value⟩ := e
    rw [List.forall_mem_cons] at keys
    have alike := equivalenceOn_wellKeyed.same_left hk ho keys.1 same
    rw [get?_cons, get?_cons, alike, ih keys.2]

/-! ### Putting -/

theorem put_of_get? {key value : Value} {entries : Entries} (h : get? key entries = some value) :
    entries.put key value = entries := by
  induction entries with
  | nil => exact nomatch h
  | cons e rest ih =>
    obtain ⟨first, old⟩ := e
    rw [get?_cons] at h
    rw [put]
    split
    · next same =>
      rw [if_pos same, Option.some.injEq] at h
      rw [h]
    · next other =>
      rw [if_neg other] at h
      rw [ih h]

theorem put_of_get?_eq_none {key : Value} {entries : Entries} (h : get? key entries = none)
    (value : Value) : entries.put key value = entries ++ [(key, value)] := by
  induction entries with
  | nil => rfl
  | cons e rest ih =>
    obtain ⟨first, old⟩ := e
    rw [get?_cons] at h
    rw [put]
    split
    · next same => simp [same] at h
    · next other =>
      rw [if_neg other] at h
      rw [ih h, List.cons_append]

theorem put_put {key : Value} (same : key.same key = true) (first second : Value)
    (entries : Entries) : (entries.put key first).put key second = entries.put key second := by
  induction entries with
  | nil => simp [put, same]
  | cons e rest ih =>
    obtain ⟨found, old⟩ := e
    by_cases here : key.same found = true
    · simp [put, here]
    · simp [put, here, ih]

/-- Nothing is put but the one value, under the key or under one that is there. -/
theorem mem_put {key value : Value} {entries : Entries} {e : Value × Value}
    (h : e ∈ entries.put key value) :
    e ∈ entries ∨ e.2 = value ∧ (e.1 = key ∨ ∃ old, (e.1, old) ∈ entries) := by
  induction entries with
  | nil =>
    obtain rfl := List.mem_singleton.1 h
    exact .inr ⟨rfl, .inl rfl⟩
  | cons first rest ih =>
    obtain ⟨found, old⟩ := first
    rw [put] at h
    split at h
    · rcases List.mem_cons.1 h with rfl | mem
      · exact .inr ⟨rfl, .inr ⟨old, List.mem_cons_self⟩⟩
      · exact .inl (List.mem_cons_of_mem _ mem)
    · rcases List.mem_cons.1 h with rfl | mem
      · exact .inl List.mem_cons_self
      · rcases ih mem with mem | ⟨written, key | ⟨old, mem⟩⟩
        · exact .inl (List.mem_cons_of_mem _ mem)
        · exact .inr ⟨written, .inl key⟩
        · exact .inr ⟨written, .inr ⟨old, List.mem_cons_of_mem _ mem⟩⟩

theorem forall_key_put {P : Value → Prop} {key value : Value} {entries : Entries} (hk : P key)
    (keys : ∀ e ∈ entries, P e.1) : ∀ e ∈ entries.put key value, P e.1 := by
  intro e mem
  rcases mem_put mem with mem | ⟨-, same | ⟨old, mem⟩⟩
  · exact keys e mem
  · exact same ▸ hk
  · exact keys (e.1, old) mem

theorem WellKeyed.put {entries : Entries} (h : entries.WellKeyed) {key value : Value}
    (hk : key.WellKeyed) (hv : value.WellKeyed) : (entries.put key value).WellKeyed := by
  induction entries with
  | nil => exact wellKeyed_cons_iff.2 ⟨⟨by simp, hk, hv⟩, wellKeyed_nil⟩
  | cons e rest ih =>
    obtain ⟨found, old⟩ := e
    obtain ⟨⟨apart, hf, ho⟩, behind⟩ := wellKeyed_cons_iff.1 h
    rw [Entries.put]
    split
    · exact wellKeyed_cons_iff.2 ⟨⟨apart, hf, hv⟩, behind⟩
    · next other =>
      have new : found.same key = false := by
        by_contra same
        rw [Bool.not_eq_false] at same
        exact other (equivalenceOn_wellKeyed.symm hf hk same)
      have differ : ∀ e ∈ Entries.put key value rest, found.same e.1 = false :=
        forall_key_put (P := fun k => found.same k = false) new apart
      exact wellKeyed_cons_iff.2 ⟨⟨differ, hf, ho⟩, ih behind⟩

theorem get?_put {key written : Value} (hk : key.WellKeyed) (hw : written.WellKeyed)
    (value : Value) {entries : Entries} (keys : ∀ e ∈ entries, e.1.WellKeyed) :
    get? key (entries.put written value) =
      if key.same written then some value else get? key entries := by
  induction entries with
  | nil => rw [put, get?_cons, get?_nil]
  | cons e rest ih =>
    obtain ⟨found, old⟩ := e
    rw [List.forall_mem_cons] at keys
    rw [put]
    split
    · next same =>
      have alike := equivalenceOn_wellKeyed.same_right hk hw keys.1 same
      rw [get?_cons, get?_cons, alike]
      split <;> rfl
    · next other =>
      rw [get?_cons, get?_cons, ih keys.2]
      by_cases same : key.same written = true
      · have elsewhere : ¬ key.same found = true := by
          rwa [equivalenceOn_wellKeyed.same_left hk hw keys.1 same]
        rw [if_neg elsewhere, if_pos same, if_pos same]
      · rw [if_neg same, if_neg same]

end Entries
end StyledText.Yaml

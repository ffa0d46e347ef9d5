import StyledText.Proofs.Yaml.Entries

/-!
# Overlays

An overlay goes over entries key by key: under every key of its own the upper value goes over the
lower one, and all else shows through. A mapping goes over a mapping in the same way and over
anything else as if that were empty. What has gone over once changes nothing when it goes over
again.
-/
namespace StyledText.Yaml.Entries

open Value

/-- The entries of a mapping that bears no tag; anything else counts as an empty one. -/
def tableOf : Option Value → Entries
  | some (.mapping entries) => entries
  | _ => []

theorem wellKeyed_tableOf {value : Option Value} (h : ∀ v ∈ value, v.WellKeyed) :
    (tableOf value).WellKeyed := by
  rw [tableOf.eq_def]
  split
  · exact wellKeyed_mapping_iff.1 (h _ rfl)
  · exact wellKeyed_nil

theorem WellKeyed.inner {entries inner : Entries} (h : entries.WellKeyed) {name : Text}
    (found : entries.lookup name = some (.mapping inner)) : inner.WellKeyed :=
  wellKeyed_mapping_iff.1 (wellKeyed_of_get? h _ found)

theorem WellKeyed.below {entries : Entries} (h : entries.WellKeyed) (name : Text) :
    (tableOf (entries.lookup name)).WellKeyed :=
  wellKeyed_tableOf (wellKeyed_of_get? h)

@[simp] theorem merge_nil (base : Entries) : merge base [] = base := rfl

theorem merge_cons (base : Entries) (key value : Value) (rest : Entries) :
    merge base ((key, value) :: rest) =
      merge (base.put key (mergeValue (get? key base) value)) rest := rfl

theorem mergeValue_none (value : Value) : mergeValue none value = value := by
  cases value <;> rfl

theorem mergeValue_of_ne_mapping {value : Value} (h : ∀ entries, value ≠ .mapping entries)
    (below : Option Value) : mergeValue below value = value := by
  cases value with
  | mapping entries => exact absurd rfl (h entries)
  | _ => rfl

/-- Over entries without its keys an overlay is appended. -/
theorem merge_of_append {base overlay : Entries} (h : WellKeyed (base ++ overlay)) :
    merge base overlay = base ++ overlay := by
  induction overlay generalizing base with
  | nil => rw [merge_nil, List.append_nil]
  | cons e rest ih =>
    obtain ⟨key, value⟩ := e
    have differ := (List.pairwise_append.1 h.differ).2.2
    have new : get? key base = none := by
      refine get?_eq_none_iff.2 fun f mem same => ?_
      have key := h.keys (key, value) (List.mem_append_right _ List.mem_cons_self)
      have found := h.keys f (List.mem_append_left _ mem)
      have back := equivalenceOn_wellKeyed.symm key found same
      exact absurd back (by simp [differ f mem (_, value) List.mem_cons_self])
    rw [List.append_cons] at h
    rw [merge_cons, new, mergeValue_none, put_of_get?_eq_none new, ih h, ← List.append_cons]

theorem merge_nil_left {overlay : Entries} (h : overlay.WellKeyed) : merge [] overlay = overlay :=
  merge_of_append h

theorem mergeValue_mapping {upper : Entries} (h : upper.WellKeyed) (below : Option Value) :
    mergeValue below (.mapping upper) = .mapping (merge (tableOf below) upper) := by
  have alone : Value.mapping upper = .mapping (merge [] upper) := by rw [merge_nil_left h]
  cases below with
  | none => exact alone
  | some lower =>
    cases lower with
    | mapping entries => rfl
    | _ => exact alone

/-! ### Keys -/

theorem get?_merge {key : Value} (hk : key.WellKeyed) {base overlay : Entries}
    (keys : ∀ e ∈ base, e.1.WellKeyed) (h : overlay.WellKeyed) :
    get? key (merge base overlay) =
      match get? key overlay with
      | some value => some (mergeValue (get? key base) value)
      | none => get? key base := by
  induction overlay generalizing base with
  | nil => rfl
  | cons e rest ih =>
    obtain ⟨first, value⟩ := e
    obtain ⟨⟨apart, hf, -⟩, hr⟩ := wellKeyed_cons_iff.1 h
    rw [merge_cons, ih (forall_key_put hf keys) hr, get?_put hk hf _ keys, get?_cons]
    by_cases same : key.same first = true
    · have absent : get? key rest = none := by
        refine get?_eq_none_iff.2 fun f mem found => ?_
        rw [equivalenceOn_wellKeyed.same_left hk hf (hr.keys f mem) same, apart f mem] at found
        exact nomatch found
      simp only [absent, if_pos same, get?_congr hk hf same keys]
    · simp only [if_neg same]

/-- Overlaying keeps keys apart where it does so in every value. -/
theorem WellKeyed.merge_of {base overlay : Entries} (hb : base.WellKeyed) (ho : overlay.WellKeyed)
    (step : ∀ e ∈ overlay, ∀ below : Option Value, (∀ v ∈ below, v.WellKeyed) →
      (mergeValue below e.2).WellKeyed) : (merge base overlay).WellKeyed := by
  induction overlay generalizing base with
  | nil => exact hb
  | cons e rest ih =>
    obtain ⟨key, value⟩ := e
    obtain ⟨⟨-, hk, -⟩, hr⟩ := wellKeyed_cons_iff.1 ho
    rw [List.forall_mem_cons] at step
    exact ih (hb.put hk (step.1 _ (wellKeyed_of_get? hb))) hr step.2

theorem WellKeyed.mergeValue {value : Value} (h : value.WellKeyed) {below : Option Value}
    (lower : ∀ v ∈ below, v.WellKeyed) : (Entries.mergeValue below value).WellKeyed := by
  induction h generalizing below with
  | @mapping upper differ keys values _ ih =>
    have keyed : upper.WellKeyed := ⟨differ, keys, values⟩
    rw [mergeValue_mapping keyed, wellKeyed_mapping_iff]
    exact WellKeyed.merge_of (wellKeyed_tableOf lower) keyed fun e mem _ => ih e mem
  | null => exact .null
  | bool b => exact .bool b
  | number n => exact .number n
  | string t => exact .string t
  | sequence each => exact .sequence each
  | tagged tag inner => exact .tagged tag inner

theorem WellKeyed.merge {base overlay : Entries} (hb : base.WellKeyed) (ho : overlay.WellKeyed) :
    (merge base overlay).WellKeyed :=
  WellKeyed.merge_of hb ho fun e mem _ => WellKeyed.mergeValue (ho.values e mem)

/-! ### Overlaying twice -/

/-- What holds already all that the overlay would put there stays as it is. -/
theorem merge_of_absorbed {base overlay : Entries}
    (h : ∀ e ∈ overlay, ∃ w, get? e.1 base = some w ∧ mergeValue (some w) e.2 = w) :
    merge base overlay = base := by
  induction overlay with
  | nil => rfl
  | cons e rest ih =>
    obtain ⟨key, value⟩ := e
    rw [List.forall_mem_cons] at h
    obtain ⟨⟨w, found, kept⟩, h⟩ := h
    rw [merge_cons, found, kept, put_of_get? found, ih h]

theorem merge_merge_of {base overlay : Entries} (hb : base.WellKeyed) (ho : overlay.WellKeyed)
    (step : ∀ e ∈ overlay, ∀ below : Option Value, (∀ v ∈ below, v.WellKeyed) →
      mergeValue (some (mergeValue below e.2)) e.2 = mergeValue below e.2) :
    merge (merge base overlay) overlay = merge base overlay := by
  refine merge_of_absorbed fun e mem => ⟨mergeValue (get? e.1 base) e.2, ?_, ?_⟩
  · rw [get?_merge (ho.keys e mem) hb.keys ho, get?_of_mem ho mem]
  · exact step e mem _ (wellKeyed_of_get? hb)

theorem mergeValue_mergeValue {value : Value} (h : value.WellKeyed) {below : Option Value}
    (lower : ∀ v ∈ below, v.WellKeyed) :
    mergeValue (some (mergeValue below value)) value = mergeValue below value := by
  induction h generalizing below with
  | @mapping upper differ keys values _ ih =>
    have keyed : upper.WellKeyed := ⟨differ, keys, values⟩
    have table := wellKeyed_tableOf lower
    rw [mergeValue_mapping keyed, mergeValue_mapping keyed, tableOf, merge_merge_of table keyed ih]
  | _ => rfl

theorem merge_merge {base overlay : Entries} (hb : base.WellKeyed) (ho : overlay.WellKeyed) :
    merge (merge base overlay) overlay = merge base overlay :=
  merge_merge_of hb ho fun e mem _ lower => mergeValue_mergeValue (ho.values e mem) lower

end StyledText.Yaml.Entries

import Mathlib.Data.List.Basic
import StyledText.Yaml.Value

/-!
# Equality of values

In the values that are made here the keys of every mapping differ. On these, equality is an
equivalence although it is found from one side only: it looks every entry of the first mapping up
in the second, and among as many entries that leaves none of the second out.
-/
namespace StyledText

/-! ### Numbers -/

namespace Number

theorem same_refl (n : Number) : n.same n = true := by
  cases n <;> simp [same, sameBits]

theorem same_symm {m n : Number} (h : m.same n = true) : n.same m = true := by
  cases m <;> cases n <;> simp only [same, sameBits, Bool.false_eq_true, Bool.or_eq_true,
    Bool.and_eq_true, decide_eq_true_eq] at h ⊢
  · exact h.symm
  · exact h.imp (Or.imp Eq.symm And.symm) And.symm

theorem same_trans {l m n : Number} (h : l.same m = true) (more : m.same n = true) :
    l.same n = true := by
  cases l <;> cases m <;> cases n <;> simp only [same, sameBits, Bool.false_eq_true,
    Bool.or_eq_true, Bool.and_eq_true, decide_eq_true_eq] at h more ⊢
  · exact h.trans more
  · have nonzero : infinityBits ≠ 0 := by decide
    grind

end Number

namespace Yaml

/-- No key equals one behind it. -/
def Entries.KeysDiffer (entries : Entries) : Prop :=
  entries.Pairwise fun e f => e.1.same f.1 = false

namespace Value

/-- In every mapping of the value, however deep, the keys differ. -/
inductive WellKeyed : Value → Prop
  | null : WellKeyed .null
  | bool (b : Bool) : WellKeyed (.bool b)
  | number (n : Number) : WellKeyed (.number n)
  | string (t : Text) : WellKeyed (.string t)
  | sequence {items : List Value} (each : ∀ v ∈ items, WellKeyed v) : WellKeyed (.sequence items)
  | mapping {entries : Entries} (differ : entries.KeysDiffer) (keys : ∀ e ∈ entries, WellKeyed e.1)
      (values : ∀ e ∈ entries, WellKeyed e.2) : WellKeyed (.mapping entries)
  | tagged (tag : Text) {value : Value} (inner : WellKeyed value) : WellKeyed (.tagged tag value)

/-! ### What equals a value -/

section
variable {y : Value}

theorem same_null_iff : Value.null.same y = true ↔ y = .null := by
  cases y <;> simp [same]

theorem same_bool_iff {b : Bool} : (Value.bool b).same y = true ↔ y = .bool b := by
  cases y <;> simp [same, eq_comm]

theorem same_number_iff {m : Number} :
    (Value.number m).same y = true ↔ ∃ n, y = .number n ∧ m.same n = true := by
  cases y <;> simp [same]

theorem same_string_iff {t : Text} : (Value.string t).same y = true ↔ y = .string t := by
  cases y <;> simp [same, eq_comm]

theorem same_sequence_iff {xs : List Value} :
    (Value.sequence xs).same y = true ↔ ∃ ys, y = .sequence ys ∧ sameItems xs ys = true := by
  cases y <;> simp [same]

theorem same_mapping_iff {xs : Entries} :
    (Value.mapping xs).same y = true ↔
      ∃ ys : Entries, y = .mapping ys ∧ xs.length = ys.length ∧ sameEntries xs ys = true := by
  cases y <;> simp [same]

theorem same_tagged_iff {tag : Text} {x : Value} :
    (Value.tagged tag x).same y = true ↔ ∃ z, y = .tagged tag z ∧ x.same z = true := by
  cases y with
  | tagged other z => by_cases tags : tag = other <;> simp [same, tags, Ne.symm]
  | _ => simp [same]

end

/-- On the values in `S` equality is an equivalence. -/
structure EquivalenceOn (S : Value → Prop) : Prop where
  refl {x : Value} (hx : S x) : x.same x = true
  symm {x y : Value} (hx : S x) (hy : S y) (h : x.same y = true) : y.same x = true
  trans {x y z : Value} (hx : S x) (hy : S y) (hz : S z) (h : x.same y = true)
    (more : y.same z = true) : x.same z = true

/-- A relation that sends every element of one list to an element of another that is no longer, and
no two of them to the same one, leaves nothing of the other out. -/
theorem exists_mem_of_length_le {α β : Type} {R : α → β → Prop} {xs : List α} {ys : List β}
    (size : ys.length ≤ xs.length) (apart : xs.Pairwise fun x x' => ∀ y ∈ ys, R x y → ¬ R x' y)
    (total : ∀ x ∈ xs, ∃ y ∈ ys, R x y) : ∀ y ∈ ys, ∃ x ∈ xs, R x y := by
  induction xs generalizing ys with
  | nil =>
    intro y mem
    rw [List.length_nil, Nat.le_zero, List.length_eq_zero_iff] at size
    exact absurd mem (by simp [size])
  | cons x xs ih =>
    obtain ⟨first, apart⟩ := List.pairwise_cons.1 apart
    rw [List.forall_mem_cons] at total
    obtain ⟨⟨y₀, mem₀, rel⟩, total⟩ := total
    obtain ⟨front, back, rfl⟩ := List.append_of_mem mem₀
    have rest : ∀ y ∈ front ++ back, ∃ x ∈ xs, R x y := by
      have kept {y : β} (mem : y ∈ front ++ back) : y ∈ front ++ y₀ :: back := by
        simp only [List.mem_append, List.mem_cons] at mem ⊢
        exact mem.imp_right .inr
      refine ih ?_ (apart.imp fun h y mem => h y (kept mem)) fun x' mem => ?_
      · simp only [List.length_append, List.length_cons] at size ⊢
        omega
      · obtain ⟨y, memY, rel'⟩ := total x' mem
        have other : y ≠ y₀ := by
          rintro rfl
          exact first x' mem y mem₀ rel rel'
        refine ⟨y, ?_, rel'⟩
        simpa [other] using memY
    intro y mem
    by_cases same : y = y₀
    · exact ⟨x, List.mem_cons_self, same ▸ rel⟩
    · obtain ⟨x', memX, rel'⟩ := rest y (by simpa [same] using mem)
      exact ⟨x', List.mem_cons_of_mem x memX, rel'⟩

namespace EquivalenceOn

variable {S : Value → Prop} (eq : EquivalenceOn S)
include eq

theorem same_left {x y z : Value} (hx : S x) (hy : S y) (hz : S z) (h : x.same y = true) :
    x.same z = y.same z := by
  rw [Bool.eq_iff_iff]
  exact ⟨eq.trans hy hx hz (eq.symm hx hy h), eq.trans hx hy hz h⟩

theorem same_right {x y z : Value} (hx : S x) (hy : S y) (hz : S z) (h : y.same z = true) :
    x.same y = x.same z := by
  rw [Bool.eq_iff_iff]
  exact ⟨fun same => eq.trans hx hy hz same h,
    fun same => eq.trans hx hz hy same (eq.symm hy hz h)⟩

/-! ### Sequences -/

theorem sameItems_refl {xs : List Value} (hx : ∀ x ∈ xs, S x) : sameItems xs xs = true := by
  induction xs with
  | nil => rfl
  | cons x xs ih =>
    rw [List.forall_mem_cons] at hx
    simp [sameItems, eq.refl hx.1, ih hx.2]

theorem sameItems_symm {xs ys : List Value} (hx : ∀ x ∈ xs, S x) (hy : ∀ y ∈ ys, S y)
    (h : sameItems xs ys = true) : sameItems ys xs = true := by
  induction xs generalizing ys with
  | nil => cases ys <;> simp_all [sameItems]
  | cons x xs ih =>
    cases ys with
    | nil => simp [sameItems] at h
    | cons y ys =>
      rw [List.forall_mem_cons] at hx hy
      simp only [sameItems, Bool.and_eq_true] at h ⊢
      exact ⟨eq.symm hx.1 hy.1 h.1, ih hx.2 hy.2 h.2⟩

theorem sameItems_trans {xs ys zs : List Value} (hx : ∀ x ∈ xs, S x) (hy : ∀ y ∈ ys, S y)
    (hz : ∀ z ∈ zs, S z) (h : sameItems xs ys = true) (more : sameItems ys zs = true) :
    sameItems xs zs = true := by
  induction xs generalizing ys zs with
  | nil => cases ys <;> simp_all [sameItems]
  | cons x xs ih =>
    cases ys with
    | nil => simp [sameItems] at h
    | cons y ys =>
      cases zs with
      | nil => simp [sameItems] at more
      | cons z zs =>
        rw [List.forall_mem_cons] at hx hy hz
        simp only [sameItems, Bool.and_eq_true] at h more ⊢
        exact ⟨eq.trans hx.1 hy.1 hz.1 h.1 more.1, ih hx.2 hy.2 hz.2 h.2 more.2⟩

/-! ### Mappings -/

/-- Where the keys differ, at most one of them equals a given one. -/
theorem find?_of_mem {entries : Entries} (differ : entries.KeysDiffer)
    (keys : ∀ e ∈ entries, S e.1) {key : Value} (hk : S key) {e : Value × Value}
    (mem : e ∈ entries) (h : key.same e.1 = true) :
    entries.find? (fun f => key.same f.1) = some e := by
  induction entries with
  | nil => exact nomatch mem
  | cons first rest ih =>
    obtain ⟨apart, differ⟩ := List.pairwise_cons.1 differ
    rw [List.forall_mem_cons] at keys
    rcases List.mem_cons.1 mem with rfl | mem
    · exact List.find?_cons_of_pos h
    · have other : ¬ key.same first.1 = true := fun found =>
        absurd (eq.trans keys.1 hk (keys.2 e mem) (eq.symm hk keys.1 found) h)
          (by simp [apart e mem])
      rw [← ih differ keys.2 mem]
      exact List.find?_cons_of_neg other

theorem sameEntry_iff {entries : Entries} (differ : entries.KeysDiffer)
    (keys : ∀ f ∈ entries, S f.1) {e : Value × Value} (he : S e.1) :
    sameEntry e entries = true ↔
      ∃ f ∈ entries, e.1.same f.1 = true ∧ e.2.same f.2 = true := by
  obtain ⟨key, value⟩ := e
  constructor
  · intro h
    simp only [sameEntry] at h
    split at h
    · next f found =>
      have key : key.same f.1 = true :=
        List.find?_some (p := fun g : Value × Value => key.same g.1) found
      exact ⟨f, List.mem_of_find?_eq_some found, key, h⟩
    · exact nomatch h
  · rintro ⟨f, mem, key, value⟩
    simp only [sameEntry, eq.find?_of_mem differ keys he mem key, value]

theorem sameEntries_iff {xs ys : Entries} (differ : ys.KeysDiffer) (keys : ∀ f ∈ ys, S f.1)
    (hx : ∀ e ∈ xs, S e.1) :
    sameEntries xs ys = true ↔
      ∀ e ∈ xs, ∃ f ∈ ys, e.1.same f.1 = true ∧ e.2.same f.2 = true := by
  induction xs with
  | nil => simp [sameEntries]
  | cons e xs ih =>
    rw [List.forall_mem_cons] at hx
    rw [sameEntries, Bool.and_eq_true, eq.sameEntry_iff differ keys hx.1, ih hx.2,
      List.forall_mem_cons]

theorem sameEntries_refl {xs : Entries} (differ : xs.KeysDiffer) (keys : ∀ e ∈ xs, S e.1)
    (values : ∀ e ∈ xs, S e.2) : sameEntries xs xs = true :=
  (eq.sameEntries_iff differ keys keys).2 fun e mem =>
    ⟨e, mem, eq.refl (keys e mem), eq.refl (values e mem)⟩

section
variable {xs ys : Entries} (differX : xs.KeysDiffer) (differY : ys.KeysDiffer)
  (keysX : ∀ e ∈ xs, S e.1) (keysY : ∀ f ∈ ys, S f.1) (valuesX : ∀ e ∈ xs, S e.2)
  (valuesY : ∀ f ∈ ys, S f.2) (h : sameEntries xs ys = true)
include differY keysX keysY valuesX valuesY h

theorem sameEntries_symm (differX : xs.KeysDiffer) (size : xs.length = ys.length) :
    sameEntries ys xs = true := by
  have found := (eq.sameEntries_iff differY keysY keysX).1 h
  -- Keys that equal one key of the second mapping equal each other, and there is one such key.
  have apart : xs.Pairwise fun e e' =>
      ∀ f ∈ ys, e.1.same f.1 = true ∧ e.2.same f.2 = true →
        ¬ (e'.1.same f.1 = true ∧ e'.2.same f.2 = true) := by
    refine differX.imp_of_mem fun {e e'} mem mem' differ f memF first second => ?_
    have back := eq.symm (keysX e' mem') (keysY f memF) second.1
    have same := eq.trans (keysX e mem) (keysY f memF) (keysX e' mem') first.1 back
    exact absurd same (by simp [differ])
  rw [eq.sameEntries_iff differX keysX keysY]
  intro f mem
  obtain ⟨e, memE, key, value⟩ := exists_mem_of_length_le (Nat.le_of_eq size.symm) apart found f mem
  exact ⟨e, memE, eq.symm (keysX e memE) (keysY f mem) key,
    eq.symm (valuesX e memE) (valuesY f mem) value⟩

theorem sameEntries_trans {zs : Entries} (differZ : zs.KeysDiffer) (keysZ : ∀ g ∈ zs, S g.1)
    (valuesZ : ∀ g ∈ zs, S g.2) (more : sameEntries ys zs = true) : sameEntries xs zs = true := by
  have first := (eq.sameEntries_iff differY keysY keysX).1 h
  have second := (eq.sameEntries_iff differZ keysZ keysY).1 more
  rw [eq.sameEntries_iff differZ keysZ keysX]
  intro e mem
  obtain ⟨f, memF, keyF, valueF⟩ := first e mem
  obtain ⟨g, memG, keyG, valueG⟩ := second f memF
  exact ⟨g, memG, eq.trans (keysX e mem) (keysY f memF) (keysZ g memG) keyF keyG,
    eq.trans (valuesX e mem) (valuesY f memF) (valuesZ g memG) valueF valueG⟩

end

end EquivalenceOn

/-! ### Values by their size -/

/-- The values of less than a given size. -/
def Below (n : ℕ) (v : Value) : Prop := v.WellKeyed ∧ sizeOf v < n

namespace Below

variable {n : ℕ} {x y z : Value}

theorem item {items : List Value} (h : Below (n + 1) (.sequence items)) :
    ∀ v ∈ items, Below n v := by
  obtain ⟨keyed, size⟩ := h
  cases keyed with
  | sequence each =>
    intro v mem
    have smaller := List.sizeOf_lt_of_mem mem
    simp only [sequence.sizeOf_spec] at size
    exact ⟨each v mem, by omega⟩

theorem entry {entries : Entries} (h : Below (n + 1) (.mapping entries)) :
    entries.KeysDiffer ∧ (∀ e ∈ entries, Below n e.1) ∧ ∀ e ∈ entries, Below n e.2 := by
  obtain ⟨keyed, size⟩ := h
  cases keyed with
  | mapping differ keys values =>
    have inside {e : Value × Value} (mem : e ∈ entries) : sizeOf e.1 < n ∧ sizeOf e.2 < n := by
      have smaller := List.sizeOf_lt_of_mem mem
      obtain ⟨key, value⟩ := e
      simp only [mapping.sizeOf_spec, Prod.mk.sizeOf_spec] at size smaller ⊢
      omega
    exact ⟨differ, fun e mem => ⟨keys e mem, (inside mem).1⟩,
      fun e mem => ⟨values e mem, (inside mem).2⟩⟩

theorem inner {tag : Text} (h : Below (n + 1) (.tagged tag x)) : Below n x := by
  obtain ⟨keyed, size⟩ := h
  cases keyed with
  | tagged _ inner =>
    simp only [tagged.sizeOf_spec] at size
    exact ⟨inner, by omega⟩

variable (parts : EquivalenceOn (Below n))
include parts

theorem same_refl (hx : Below (n + 1) x) : x.same x = true := by
  cases x with
  | null => exact same_null_iff.2 rfl
  | bool b => exact same_bool_iff.2 rfl
  | number m => exact same_number_iff.2 ⟨m, rfl, m.same_refl⟩
  | string t => exact same_string_iff.2 rfl
  | sequence xs => exact same_sequence_iff.2 ⟨xs, rfl, parts.sameItems_refl hx.item⟩
  | mapping xs =>
    obtain ⟨differ, keys, values⟩ := hx.entry
    exact same_mapping_iff.2 ⟨xs, rfl, rfl, parts.sameEntries_refl differ keys values⟩
  | tagged tag x => exact same_tagged_iff.2 ⟨x, rfl, parts.refl hx.inner⟩

theorem same_symm (hx : Below (n + 1) x) (hy : Below (n + 1) y) (h : x.same y = true) :
    y.same x = true := by
  cases x with
  | null => exact same_null_iff.1 h ▸ h
  | bool b => exact same_bool_iff.1 h ▸ same_bool_iff.2 rfl
  | number m =>
    obtain ⟨k, rfl, same⟩ := same_number_iff.1 h
    exact same_number_iff.2 ⟨m, rfl, Number.same_symm same⟩
  | string t => exact same_string_iff.1 h ▸ same_string_iff.2 rfl
  | sequence xs =>
    obtain ⟨ys, rfl, same⟩ := same_sequence_iff.1 h
    exact same_sequence_iff.2 ⟨xs, rfl, parts.sameItems_symm hx.item hy.item same⟩
  | mapping xs =>
    obtain ⟨ys, rfl, size, same⟩ := same_mapping_iff.1 h
    obtain ⟨differX, keysX, valuesX⟩ := hx.entry
    obtain ⟨differY, keysY, valuesY⟩ := hy.entry
    exact same_mapping_iff.2 ⟨xs, rfl, size.symm,
      parts.sameEntries_symm differY keysX keysY valuesX valuesY same differX size⟩
  | tagged tag x =>
    obtain ⟨y, rfl, same⟩ := same_tagged_iff.1 h
    exact same_tagged_iff.2 ⟨x, rfl, parts.symm hx.inner hy.inner same⟩

theorem same_trans (hx : Below (n + 1) x) (hy : Below (n + 1) y) (hz : Below (n + 1) z)
    (h : x.same y = true) (more : y.same z = true) : x.same z = true := by
  cases x with
  | null => rwa [same_null_iff.1 h] at more
  | bool b => rwa [same_bool_iff.1 h] at more
  | number l =>
    obtain ⟨m, rfl, same⟩ := same_number_iff.1 h
    obtain ⟨k, rfl, further⟩ := same_number_iff.1 more
    exact same_number_iff.2 ⟨k, rfl, Number.same_trans same further⟩
  | string t => rwa [same_string_iff.1 h] at more
  | sequence xs =>
    obtain ⟨ys, rfl, same⟩ := same_sequence_iff.1 h
    obtain ⟨zs, rfl, further⟩ := same_sequence_iff.1 more
    exact same_sequence_iff.2
      ⟨zs, rfl, parts.sameItems_trans hx.item hy.item hz.item same further⟩
  | mapping xs =>
    obtain ⟨ys, rfl, size, same⟩ := same_mapping_iff.1 h
    obtain ⟨zs, rfl, size', further⟩ := same_mapping_iff.1 more
    obtain ⟨-, keysX, valuesX⟩ := hx.entry
    obtain ⟨differY, keysY, valuesY⟩ := hy.entry
    obtain ⟨differZ, keysZ, valuesZ⟩ := hz.entry
    exact same_mapping_iff.2 ⟨zs, rfl, size.trans size',
      parts.sameEntries_trans differY keysX keysY valuesX valuesY same differZ keysZ valuesZ
        further⟩
  | tagged tag x =>
    obtain ⟨y, rfl, same⟩ := same_tagged_iff.1 h
    obtain ⟨z, rfl, further⟩ := same_tagged_iff.1 more
    exact same_tagged_iff.2 ⟨z, rfl, parts.trans hx.inner hy.inner hz.inner same further⟩

end Below

/-- All three values stay below one bound, so that an induction on it carries all three laws. -/
theorem equivalenceOn_below (n : ℕ) : EquivalenceOn (Below n) := by
  induction n with
  | zero =>
    have none {v : Value} (h : Below 0 v) : False := Nat.not_lt_zero _ h.2
    exact ⟨fun h => (none h).elim, fun h => (none h).elim, fun h => (none h).elim⟩
  | succ n parts => exact ⟨Below.same_refl parts, Below.same_symm parts, Below.same_trans parts⟩

theorem equivalenceOn_wellKeyed : EquivalenceOn WellKeyed where
  refl {x} hx := (equivalenceOn_below (sizeOf x + 1)).refl ⟨hx, by omega⟩
  symm {x y} hx hy :=
    (equivalenceOn_below (sizeOf x + sizeOf y + 1)).symm ⟨hx, by omega⟩ ⟨hy, by omega⟩
  trans {x y z} hx hy hz :=
    (equivalenceOn_below (sizeOf x + sizeOf y + sizeOf z + 1)).trans ⟨hx, by omega⟩
      ⟨hy, by omega⟩ ⟨hz, by omega⟩
end Value
end Yaml
end StyledText

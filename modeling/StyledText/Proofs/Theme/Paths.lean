import Mathlib.Data.List.Infix
import StyledText.Theme.Basic
import StyledText.Proofs.Text.Splitting
import StyledText.Proofs.Yaml.Overlay

/-!
# Paths apart

Two paths are apart when neither leads to or through the other. A value written at one of them is
not seen at the other, whatever tables, tags and other values stand in the way. Themes that agree
on all paths apart from some given ones differ in the entries under those alone.
-/
namespace StyledText

open Yaml

namespace Yaml

/-- A mapping behind a tag. -/
def Value.isTaggedTable : Value → Bool
  | .tagged _ value => value.entries?.isSome
  | _ => false

@[simp] theorem Value.entries?_mapping (entries : Entries) :
    (Value.mapping entries).entries? = some entries := rfl

@[simp] theorem Value.entries?_tagged (tag : Text) (value : Value) :
    (Value.tagged tag value).entries? = value.entries? := rfl

theorem Value.eq_mapping_of_entries? {value : Value} {inner : Entries}
    (free : value.isTaggedTable = false) (found : value.entries? = some inner) :
    value = .mapping inner := by
  cases value with
  | mapping entries => exact congrArg mapping (Option.some.inj found)
  | tagged tag value =>
    have isTable : value.entries?.isSome = true := Option.isSome_of_eq_some found
    exact absurd isTable (by simpa [isTaggedTable] using free)
  | _ => exact nomatch found

theorem Entries.lookup_cons (name : Text) (key value : Value) (entries : Entries) :
    Entries.lookup name ((key, value) :: entries) =
      if (Value.string name).same key then some value else entries.lookup name :=
  get?_cons _ _ _ _

theorem Entries.lookup_put (name written : Text) (value : Value) (entries : Entries) :
    (entries.put (.string written) value).lookup name =
      if name = written then some value else entries.lookup name := by
  have here (key : Text) : (Value.string name).same (.string key) = decide (name = key) := by
    simp [Value.same]
  induction entries with
  | nil => simp [put, lookup_cons, here]
  | cons entry rest ih =>
    obtain ⟨key, old⟩ := entry
    rw [put]
    split
    · next found =>
      rw [Value.same_string_iff.1 found, lookup_cons, lookup_cons, here]
      by_cases same : name = written <;> simp [same]
    · next elsewhere =>
      rw [lookup_cons, lookup_cons, ih]
      by_cases same : name = written
      · subst same
        rw [if_neg elsewhere, if_pos rfl, if_pos rfl]
      · rw [if_neg same, if_neg same]

end Yaml

namespace Theme

/-- Neither path leads to or through the other. -/
def Apart (p q : Text) : Prop := ¬ segments p <+: segments q ∧ ¬ segments q <+: segments p

instance (p q : Text) : Decidable (Apart p q) := inferInstanceAs (Decidable (_ ∧ _))

theorem find?_nil : (path : List Text) → find? path [] = none
  | [] => rfl
  | [_] => rfl
  | _ :: _ :: _ => rfl

theorem find?_cons (segment next : Text) (rest : List Text) (entries : Entries) :
    find? (segment :: next :: rest) entries =
      (entries.lookup segment).bind fun value =>
        value.entries?.bind fun inner => find? (next :: rest) inner := rfl

theorem find?_append {front back : List Text} (hf : front ≠ []) (hb : back ≠ [])
    (entries : Entries) :
    find? (front ++ back) entries =
      (find? front entries).bind fun value =>
        value.entries?.bind fun inner => find? back inner := by
  obtain ⟨first, more, rfl⟩ := List.exists_cons_of_ne_nil hb
  induction front generalizing entries with
  | nil => exact absurd rfl hf
  | cons segment rest ih =>
    cases rest with
    | nil => rfl
    | cons next rest =>
      rw [List.cons_append, List.cons_append, find?_cons, find?_cons, Option.bind_assoc]
      refine Option.bind_congr fun value _ => ?_
      rw [Option.bind_assoc]
      exact Option.bind_congr fun inner _ => ih (List.cons_ne_nil _ _) inner

/-! ### Steps of a path -/

theorem tagged_or_free (segment : Text) (entries : Entries) :
    (∃ held, entries.lookup segment = some held ∧ held.isTaggedTable = true) ∨
      ∀ held ∈ entries.lookup segment, held.isTaggedTable = false := by
  rw [or_iff_not_imp_left]
  intro none held found
  rw [Bool.eq_false_iff]
  exact fun tagged => none ⟨held, found, tagged⟩

section
variable {segment : Text} {entries : Entries}

theorem write_cons_of_tagged {held : Value} (found : entries.lookup segment = some held)
    (tagged : held.isTaggedTable = true) (value : Value) (next : Text) (rest : List Text) :
    write value (segment :: next :: rest) entries = entries := by
  rw [write.eq_3 _ _ _ _ (by simp), found]
  cases held with
  | tagged tag inner =>
    have isTable : inner.entries?.isSome = true := tagged
    simp only [Value.entries?_tagged, isTable, if_pos]
    exact Entries.put_of_get? found
  | _ => exact nomatch tagged

variable (free : ∀ held ∈ entries.lookup segment, held.isTaggedTable = false)
include free

/-- Where no tagged table stands in the way, writing goes on in the table that is there, or in a new
one. -/
theorem write_cons_of_free (value : Value) (next : Text) (rest : List Text) :
    write value (segment :: next :: rest) entries =
      entries.put (.string segment)
        (.mapping (write value (next :: rest) (Entries.tableOf (entries.lookup segment)))) := by
  rw [write.eq_3 _ _ _ _ (by simp)]
  congr 1
  cases found : entries.lookup segment with
  | none => rfl
  | some held =>
    have scalar := free held found
    cases held with
    | tagged tag inner =>
      have noTable : inner.entries?.isSome = false := scalar
      simp [noTable, Entries.tableOf]
    | _ => rfl

theorem find?_cons_of_free (next : Text) (rest : List Text) :
    find? (segment :: next :: rest) entries =
      find? (next :: rest) (Entries.tableOf (entries.lookup segment)) := by
  rw [find?_cons]
  cases found : entries.lookup segment with
  | none => exact (find?_nil _).symm
  | some held =>
    have scalar := free held found
    rw [Option.bind_some]
    cases held with
    | mapping inner => rfl
    | tagged tag inner =>
      have noTable : inner.entries? = none := by simpa [Value.isTaggedTable] using scalar
      rw [Value.entries?_tagged, noTable]
      exact (find?_nil _).symm
    | _ => exact (find?_nil _).symm

end

/-! ### What stands on the way -/

/-- Such a value stands on the way to the end of the path. -/
def OnWay (P : Value → Prop) (path : List Text) (entries : Entries) : Prop :=
  ∃ front value, front <+: path ∧ front ≠ path ∧ find? front entries = some value ∧ P value

instance (P : Value → Prop) [DecidablePred P] (path : List Text) (entries : Entries) :
    Decidable (OnWay P path entries) :=
  decidable_of_iff
    (∃ front ∈ path.inits, front ≠ path ∧ ∃ value ∈ find? front entries, P value) <| by
      simp only [OnWay, List.mem_inits, Option.mem_def, exists_and_left]

section
variable {P : Value → Prop}

theorem not_onWay_singleton (last : Text) (entries : Entries) : ¬ OnWay P [last] entries := by
  rintro ⟨front, value, inside, proper, found, -⟩
  cases front with
  | nil => exact nomatch found
  | cons first more =>
    obtain ⟨rfl, ends⟩ := List.cons_prefix_cons.1 inside
    exact proper (by rw [List.prefix_nil.1 ends])

theorem not_onWay_nil (path : List Text) : ¬ OnWay P path [] := by
  rintro ⟨front, value, -, -, found, -⟩
  rw [find?_nil] at found
  exact nomatch found

theorem onWay_cons_iff {segment next : Text} {rest : List Text} {entries : Entries} :
    OnWay P (segment :: next :: rest) entries ↔
      ∃ held, entries.lookup segment = some held ∧
        (P held ∨ ∃ inner, held.entries? = some inner ∧ OnWay P (next :: rest) inner) := by
  constructor
  · rintro ⟨front, value, inside, proper, found, such⟩
    cases front with
    | nil => exact nomatch found
    | cons first more =>
      obtain ⟨rfl, below⟩ := List.cons_prefix_cons.1 inside
      cases more with
      | nil => exact ⟨value, found, .inl such⟩
      | cons following more =>
        rw [find?_cons, Option.bind_eq_some_iff] at found
        obtain ⟨held, here, found⟩ := found
        obtain ⟨inner, table, found⟩ := Option.bind_eq_some_iff.1 found
        have proper : following :: more ≠ next :: rest := fun same => proper (by rw [same])
        have further : OnWay P (next :: rest) inner :=
          ⟨following :: more, value, below, proper, found, such⟩
        exact ⟨held, here, .inr ⟨inner, table, further⟩⟩
  · rintro ⟨held, here, such | ⟨inner, table, front, value, inside, proper, found, such⟩⟩
    · exact ⟨[segment], held, by simp, by simp, here, such⟩
    · refine ⟨segment :: front, value, List.cons_prefix_cons.2 ⟨rfl, inside⟩, by simpa using proper,
        ?_, such⟩
      obtain ⟨first, more, rfl⟩ := List.exists_cons_of_ne_nil
        (by rintro rfl; exact nomatch found : front ≠ [])
      rw [find?_cons, here, Option.bind_some, table, Option.bind_some, found]

theorem onWay_of_head {segment : Text} {entries : Entries} {held : Value}
    (found : entries.lookup segment = some held) (such : P held) (next : Text)
    (rest : List Text) : OnWay P (segment :: next :: rest) entries :=
  onWay_cons_iff.2 ⟨held, found, .inl such⟩

theorem onWay_of_inner {segment next : Text} {rest : List Text} {entries inner : Entries}
    (found : entries.lookup segment = some (.mapping inner)) (h : OnWay P (next :: rest) inner) :
    OnWay P (segment :: next :: rest) entries :=
  onWay_cons_iff.2 ⟨.mapping inner, found, .inr ⟨inner, rfl, h⟩⟩

theorem onWay_of_tableOf {segment next : Text} {rest : List Text} {entries : Entries}
    (h : OnWay P (next :: rest) (Entries.tableOf (entries.lookup segment))) :
    OnWay P (segment :: next :: rest) entries := by
  rw [Entries.tableOf.eq_def] at h
  split at h
  · next inner found => exact onWay_of_inner found h
  · exact absurd h (not_onWay_nil _)

end

theorem free_of_not_onWay {segment next : Text} {rest : List Text} {entries : Entries}
    (h : ¬ OnWay (·.isTaggedTable) (segment :: next :: rest) entries) :
    ∀ held ∈ entries.lookup segment, held.isTaggedTable = false := by
  intro held found
  rw [Bool.eq_false_iff]
  exact fun tagged => h (onWay_of_head found tagged next rest)

/-! ### Paths apart from each other -/

/-- A path that starts elsewhere does not see what is put under a key. -/
theorem find?_put_of_ne {segment other : Text} (h : segment ≠ other) (rest : List Text)
    (value : Value) (entries : Entries) :
    find? (segment :: rest) (entries.put (.string other) value) =
      find? (segment :: rest) entries := by
  have kept : (entries.put (.string other) value).lookup segment = entries.lookup segment := by
    rw [Entries.lookup_put, if_neg h]
  cases rest with
  | nil => exact kept
  | cons next rest => rw [find?_cons, find?_cons, kept]

theorem find?_write_of_apart {p q : List Text} (below : ¬ p <+: q) (above : ¬ q <+: p)
    (value : Value) (entries : Entries) : find? q (write value p entries) = find? q entries := by
  induction p generalizing q entries with
  | nil => exact absurd (List.nil_prefix) below
  | cons segment rest ih =>
    cases q with
    | nil => exact absurd (List.nil_prefix) above
    | cons start more =>
      by_cases same : start = segment
      · subst same
        rw [List.cons_prefix_cons] at below above
        have below : ¬ rest <+: more := fun inside => below ⟨rfl, inside⟩
        have above : ¬ more <+: rest := fun inside => above ⟨rfl, inside⟩
        -- The paths part further in, so neither of them ends here.
        obtain ⟨next, inner, rfl⟩ := List.exists_cons_of_ne_nil
          (fun empty => below (empty ▸ List.nil_prefix) : rest ≠ [])
        obtain ⟨following, last, rfl⟩ := List.exists_cons_of_ne_nil
          (fun empty => above (empty ▸ List.nil_prefix) : more ≠ [])
        rcases tagged_or_free start entries with ⟨held, found, tagged⟩ | free
        · rw [write_cons_of_tagged found tagged]
        · rw [write_cons_of_free free, find?_cons, Entries.lookup_put, if_pos rfl,
            Option.bind_some, Value.entries?_mapping, Option.bind_some, ih below above,
            ← find?_cons_of_free free]
      · cases rest with
        | nil => exact find?_put_of_ne same more value entries
        | cons next rest =>
          rw [write.eq_3 _ _ _ _ (by simp)]
          exact find?_put_of_ne same more _ entries

/-- What lies below a path is apart from everything that the path is apart from. -/
theorem Apart.below {p q below : Text} (h : Apart p q) (inside : segments p <+: segments below) :
    Apart below q := by
  refine ⟨fun above => h.1 (inside.trans above), fun leads => ?_⟩
  exact (List.prefix_or_prefix_of_prefix inside leads).elim h.1 h.2

theorem get?_set_of_apart {p q : Text} (h : Apart p q) (t : Theme) (value : Value) :
    (t.set p value).get? q = t.get? q :=
  find?_write_of_apart h.1 h.2 value t.entries

theorem head?_segments {table : Text} (single : '.' ∉ table) (name : Text) :
    (segments (table ++ '.' :: name)).head? = some table := by
  rw [segments, Text.splitAt_append_cons single, List.head?_cons]

theorem apart_of_head?_ne {p q : Text} (h : (segments p).head? ≠ (segments q).head?) :
    Apart p q := by
  have same {first second : Text} (inside : segments first <+: segments second) :
      (segments first).head? = (segments second).head? := by
    obtain ⟨rest, joined⟩ := inside
    have nonempty : segments first ≠ [] := Text.splitAt_ne_nil '.' first
    rw [← joined, List.head?_append_of_ne_nil _ nonempty]
  exact ⟨fun inside => h (same inside), fun inside => h (same inside).symm⟩

/-! ### Themes that agree elsewhere -/

/-- The themes agree on every path apart from the given ones. -/
def SameExcept (paths : List Text) (s t : Theme) : Prop :=
  ∀ path, (∀ p ∈ paths, Apart p path) → s.get? path = t.get? path

namespace SameExcept

variable {paths : List Text} {s t : Theme}

theorem refl (t : Theme) : SameExcept paths t t := fun _ _ => rfl

/-- A value may be written under one of the paths. -/
theorem set (h : SameExcept paths s t) {p path : Text} (mem : p ∈ paths)
    (inside : segments p <+: segments path) (value : Value) :
    SameExcept paths s (t.set path value) := by
  intro q apart
  rw [get?_set_of_apart ((apart p mem).below inside)]
  exact h q apart

variable (h : SameExcept paths s t) (path : Text) (apart : ∀ p ∈ paths, Apart p path)
include h apart

theorem getOr_eq {α : Type} (read : Value → Option α) (fallback : α) :
    s.getOr read path fallback = t.getOr read path fallback := by
  rw [getOr, getOr, h path apart]

theorem getNumber?_eq : s.getNumber? path = t.getNumber? path := by
  rw [getNumber?, getNumber?, h path apart]

theorem getText?_eq : s.getText? path = t.getText? path := by
  rw [getText?, getText?, h path apart]

end SameExcept
end Theme
end StyledText

import StyledText.Theme.Builtin
import StyledText.Theme.Source
import StyledText.Proofs.Theme.Paths
import StyledText.Proofs.Yaml.Document

/-!
# Keys of themes

However a theme is made, no table of it holds a key twice: not the built-in theme, nor one that was
read, written to or laid over another.
-/
namespace StyledText.Theme

open Yaml

/-- The keys of the theme differ in every table. -/
def WellKeyed (t : Theme) : Prop := t.entries.WellKeyed

/-! ### The built-in theme -/

theorem wellKeyed_table {entries : List (Text × Value)} (differ : (entries.map Prod.fst).Nodup)
    (values : ∀ e ∈ entries, e.2.WellKeyed) : (table entries).WellKeyed := by
  rw [table, Value.wellKeyed_mapping_iff]
  induction entries with
  | nil => exact Entries.wellKeyed_nil
  | cons e rest ih =>
    obtain ⟨key, value⟩ := e
    rw [List.forall_mem_cons] at values
    rw [List.map_cons, List.nodup_cons] at differ
    have apart : ∀ f ∈ rest.map fun e => (Value.string e.1, e.2),
        (Value.string key).same f.1 = false := by
      intro f mem
      obtain ⟨e, inside, rfl⟩ := List.mem_map.1 mem
      rw [Bool.eq_false_iff]
      intro same
      have equal : e.1 = key := Value.string.inj (Value.same_string_iff.1 same)
      exact differ.1 (List.mem_map.2 ⟨e, inside, equal⟩)
    exact Entries.wellKeyed_cons_iff.2 ⟨⟨apart, .string key, values.1⟩, ih differ.2 values.2⟩

theorem wellKeyed_builtin : builtin.WellKeyed := by
  have texts (t : Text) : (string t).WellKeyed := .string t
  have flags (b : Bool) : (Value.bool b).WellKeyed := .bool b
  have counts (i : Int) : (integer i).WellKeyed := .number (.integer i)
  have colors : (table (baseColors.map (fun c => (c, string c)) ++
      messageColors.map fun message => (message.1, string message.2.1))).WellKeyed := by
    refine wellKeyed_table (by decide) fun e mem => ?_
    rcases List.mem_append.1 mem with base | message
    · obtain ⟨color, -, rfl⟩ := List.mem_map.1 base
      exact texts color
    · obtain ⟨kind, -, rfl⟩ := List.mem_map.1 message
      exact texts kind.2.1
  have kinds : (table (messageColors.map fun message =>
      (message.1, table [("bg", string message.1), ("color", string message.2.2)]))).WellKeyed := by
    refine wellKeyed_table (by decide) fun e mem => ?_
    obtain ⟨kind, -, rfl⟩ := List.mem_map.1 mem
    exact wellKeyed_table (show ["bg".toList, "color".toList].Nodup by decide) (by simp [texts])
  rw [WellKeyed, ← Value.wellKeyed_mapping_iff]
  change (table [("colors", _), ("padding", _), ("margin", _), ("alert", _), ("el", _),
    ("heading", _), ("rule", _)]).WellKeyed
  refine wellKeyed_table (by decide) ?_
  simp only [List.forall_mem_cons]
  refine ⟨colors, wellKeyed_table (by decide) ?padding, wellKeyed_table (by decide) ?margin,
    wellKeyed_table (by decide) ?alert, wellKeyed_table (by decide) ?el,
    wellKeyed_table (by decide) ?heading, wellKeyed_table (by decide) ?rule, by simp⟩
  case alert =>
    simp only [List.forall_mem_cons]
    exact ⟨texts "left", flags false, counts 50, kinds, by simp⟩
  all_goals simp [texts, flags, counts]

/-! ### Themes that are read -/

theorem exists_of_map_eq_ok {ε α β : Type} {f : α → β} {read : Except ε α} {b : β}
    (h : read.map f = .ok b) : ∃ a, read = .ok a ∧ f a = b := by
  cases read with
  | error fault => exact nomatch h
  | ok a => exact ⟨a, rfl, Except.ok.inj h⟩

theorem wellKeyed_entriesOf {path : Option Text} {document : Text} {entries : Entries}
    (h : entriesOf path document = .ok entries) : entries.WellKeyed := by
  rw [entriesOf] at h
  split at h
  · exact nomatch h
  · next read =>
    cases h
    exact Value.wellKeyed_mapping_iff.1 (Value.wellKeyed_parse read)
  · cases h
    exact Entries.wellKeyed_nil
  · exact nomatch h

theorem wellKeyed_ofDocument {document : Text} {t : Theme} (h : ofDocument document = .ok t) :
    t.WellKeyed := by
  obtain ⟨entries, read, rfl⟩ := exists_of_map_eq_ok h
  exact wellKeyed_entriesOf read

theorem wellKeyed_ofFile {read : Text → Except FileError (List UInt8)} {path : Text} {t : Theme}
    (h : ofFile read path = .ok t) : t.WellKeyed := by
  rw [ofFile] at h
  split at h
  · exact nomatch h
  · rw [ofBytes] at h
    split at h
    · exact nomatch h
    · obtain ⟨entries, read, rfl⟩ := exists_of_map_eq_ok h
      exact wellKeyed_entriesOf read

/-! ### Themes that are changed -/

theorem wellKeyed_write {value : Value} (hv : value.WellKeyed) (path : List Text)
    {entries : Entries} (h : entries.WellKeyed) : (write value path entries).WellKeyed := by
  induction path generalizing entries with
  | nil => exact h
  | cons segment rest ih =>
    cases rest with
    | nil => exact h.put (.string segment) hv
    | cons next rest =>
      rcases tagged_or_free segment entries with ⟨held, found, tagged⟩ | free
      · rwa [write_cons_of_tagged found tagged]
      · rw [write_cons_of_free free]
        have below := ih (h.below segment)
        exact h.put (.string segment) (Value.wellKeyed_mapping_iff.2 below)

theorem WellKeyed.set {t : Theme} (h : t.WellKeyed) (path : Text) {value : Value}
    (hv : value.WellKeyed) : (t.set path value).WellKeyed :=
  wellKeyed_write hv (segments path) h

theorem WellKeyed.merge {b o : Theme} (hb : b.WellKeyed) (ho : o.WellKeyed) :
    (b.merge o).WellKeyed :=
  Entries.WellKeyed.merge hb ho

end StyledText.Theme

import StyledText.Theme.Source
import StyledText.Proofs.Theme.Paths

/-!
# Writing at a path

Whatever stands in the way of a path, a value written there is read there: tables are gone into and
all else gives way to a table. Only a tagged table keeps its place. Reading looks through its tag,
writing does not, and what is written behind it is lost.
-/
namespace StyledText.Theme

open Yaml

/-! ### Reading what was written -/

theorem find?_write {path : List Text} (nonempty : path ≠ []) {entries : Entries}
    (free : ¬ OnWay (·.isTaggedTable) path entries) (value : Value) :
    find? path (write value path entries) = some value := by
  induction path generalizing entries with
  | nil => exact absurd rfl nonempty
  | cons segment rest ih =>
    cases rest with
    | nil => exact (Entries.lookup_put segment segment value entries).trans (if_pos rfl)
    | cons next rest =>
      rw [write_cons_of_free (free_of_not_onWay free), find?_cons, Entries.lookup_put, if_pos rfl,
        Option.bind_some, Value.entries?_mapping, Option.bind_some]
      exact ih (List.cons_ne_nil _ _) fun below => free (onWay_of_tableOf below)

theorem write_of_onWay {path : List Text} {entries : Entries}
    (h : OnWay (·.isTaggedTable) path entries) (value : Value) :
    write value path entries = entries := by
  induction path generalizing entries with
  | nil => rfl
  | cons segment rest ih =>
    cases rest with
    | nil => exact absurd h (not_onWay_singleton segment entries)
    | cons next rest =>
      obtain ⟨held, found, stops⟩ := onWay_cons_iff.1 h
      by_cases tagged : held.isTaggedTable = true
      · exact write_cons_of_tagged found tagged value next rest
      · have free : ∀ other ∈ entries.lookup segment, other.isTaggedTable = false := by
          simpa [found] using tagged
        obtain ⟨inner, table, below⟩ := stops.resolve_left tagged
        obtain rfl := Value.eq_mapping_of_entries? (free held found) table
        rw [write_cons_of_free free, found, Entries.tableOf, ih below]
        exact Entries.put_of_get? found

/-- A value is read where it was written, unless a tagged table stands in the way. Then nothing is
written at all. -/
theorem get?_set (t : Theme) (path : Text) (value : Value) :
    (¬ OnWay (·.isTaggedTable) (segments path) t.entries →
        (t.set path value).get? path = some value) ∧
      (OnWay (·.isTaggedTable) (segments path) t.entries → t.set path value = t) := by
  constructor
  · intro free
    exact find?_write (Text.splitAt_ne_nil '.' path) free value
  · intro tagged
    rw [set, write_of_onWay tagged value]

theorem get?_set_through_scalars :
    let inner : Value := .mapping [(.string "b", .number (.integer 1))]
    let t : Theme := { entries := [(.string "a", .tagged "t" inner),
      (.string "c", .tagged "t" (.sequence [inner])), (.string "", inner)] }
    (t.set "c.a.b" .null).get? "c.a.b" = some .null ∧
      (t.set ".b.c" .null).get? ".b.c" = some .null ∧ t.set "a.b.c" .null = t := by
  intro inner t
  exact ⟨(get?_set t "c.a.b" .null).1 (by decide), (get?_set t ".b.c" .null).1 (by decide),
    (get?_set t "a.b.c" .null).2 (by decide)⟩

/-- Behind a tag the old value is still read. -/
theorem get?_set_behind_tag :
    let t : Theme :=
      { entries := [(.string "a", .tagged "t" (.mapping [(.string "b", .number (.integer 1))]))] }
    (ofDocument "a: !t {b: 1}".toList).toOption.any t.same = true ∧
      (t.set "a.b" (.number (.integer 5))).get? "a.b" = some (.number (.integer 1)) ∧
      ¬ ∀ path value, (t.set path value).get? path = some value := by
  intro t
  have document : (ofDocument "a: !t {b: 1}".toList).toOption.any t.same = true := by
    decide +kernel
  have kept (value : Value) :
      (t.set "a.b" value).get? "a.b" = some (.number (.integer 1)) := rfl
  refine ⟨document, kept _, fun reads => ?_⟩
  have written := reads "a.b" .null
  rw [kept] at written
  exact nomatch written

/-! ### What stays -/

theorem write_write (first second : Value) (path : List Text) (entries : Entries) :
    write second path (write first path entries) = write second path entries := by
  induction path generalizing entries with
  | nil => rfl
  | cons segment rest ih =>
    have key : (Value.string segment).same (.string segment) = true := Value.same_string_iff.2 rfl
    cases rest with
    | nil => exact Entries.put_put key first second entries
    | cons next rest =>
      rcases tagged_or_free segment entries with ⟨held, found, tagged⟩ | free
      · rw [write_cons_of_tagged found tagged]
      · have written (inner : Entries) :
            (entries.put (.string segment) (.mapping inner)).lookup segment =
              some (.mapping inner) := by
          rw [Entries.lookup_put, if_pos rfl]
        rw [write_cons_of_free free, write_cons_of_free (by simp [written, Value.isTaggedTable]),
          written, Entries.tableOf, ih, Entries.put_put key, ← write_cons_of_free free]

/-- A write is seen on no path apart from its own, changes neither the name nor the source of the
theme, and leaves nothing of an earlier one at the same path. -/
theorem set_frame (t : Theme) (p : Text) (value : Value) :
    (∀ q, Apart p q → (t.set p value).get? q = t.get? q) ∧
      (t.set p value).name = t.name ∧ (t.set p value).sourcePath = t.sourcePath ∧
      ∀ second, (t.set p value).set p second = t.set p second := by
  refine ⟨fun q apart => get?_set_of_apart apart t value, rfl, rfl, fun second => ?_⟩
  rw [set, set, set, write_write]

theorem set_frame_empty_segment :
    let t : Theme := { name := some "plain", entries :=
      [(.string "a", .mapping [(.string "b", .null), (.string "", .bool true)])] }
    let written := t.set "a..x" (.number (.integer 1))
    written.get? "a.b" = some .null ∧ written.get? "a..y" = none ∧ written.name = some "plain" ∧
      written.sourcePath = none ∧ written.set "a..x" .null = t.set "a..x" .null := by
  intro t written
  obtain ⟨elsewhere, name, source, twice⟩ := set_frame t "a..x" (.number (.integer 1))
  exact ⟨elsewhere "a.b" (by decide), elsewhere "a..y" (by decide), name, source, twice .null⟩

end StyledText.Theme

import StyledText.Proofs.Theme.Keys

/-!
# Overlaying themes

One theme goes over another path by path. What the upper theme holds at a path hides what the lower
one holds there, a value that is no table hides all that would stand behind it, and everywhere else
the lower theme shows through.
-/
namespace StyledText

open Yaml

/-! ### One step into an overlay -/

namespace Yaml.Entries

variable {base overlay : Entries} (hb : base.WellKeyed) (ho : overlay.WellKeyed) {name : Text}
include hb ho

theorem lookup_merge_of_eq_some {value : Value} (found : overlay.lookup name = some value) :
    (merge base overlay).lookup name = some (mergeValue (base.lookup name) value) := by
  rw [lookup] at found
  rw [lookup, get?_merge (.string name) hb.keys ho, found, lookup]

theorem lookup_merge_of_eq_none (absent : overlay.lookup name = none) :
    (merge base overlay).lookup name = base.lookup name := by
  rw [lookup] at absent
  rw [lookup, get?_merge (.string name) hb.keys ho, absent, lookup]

end Yaml.Entries

namespace Theme

section
variable {base overlay : Entries} (hb : base.WellKeyed) (ho : overlay.WellKeyed)
include hb ho

theorem find?_merge_cons {segment : Text} {inner : Entries}
    (found : overlay.lookup segment = some (.mapping inner)) (next : Text) (rest : List Text) :
    find? (segment :: next :: rest) (Entries.merge base overlay) =
      find? (next :: rest) (Entries.merge (Entries.tableOf (base.lookup segment)) inner) := by
  rw [find?_cons, Entries.lookup_merge_of_eq_some hb ho found,
    Entries.mergeValue_mapping (ho.inner found)]
  rfl

/-! ### Paths through an overlay -/

theorem find?_merge_of_eq_some {path : List Text} {value : Value}
    (found : find? path overlay = some value) (single : ∀ entries, value ≠ .mapping entries) :
    find? path (Entries.merge base overlay) = some value := by
  induction path generalizing base overlay with
  | nil => exact nomatch found
  | cons segment rest ih =>
    cases rest with
    | nil =>
      have merged := Entries.lookup_merge_of_eq_some hb ho found
      rwa [Entries.mergeValue_of_ne_mapping single] at merged
    | cons next rest =>
      rw [find?_cons, Option.bind_eq_some_iff] at found
      obtain ⟨held, here, found⟩ := found
      cases held with
      | mapping inner =>
        rw [find?_merge_cons hb ho here]
        exact ih (hb.below segment) (ho.inner here) found
      | _ =>
        rw [find?_cons, Entries.lookup_merge_of_eq_some hb ho here]
        exact found

theorem find?_merge_of_onWay {path : List Text} (h : OnWay (·.entries? = none) path overlay) :
    find? path (Entries.merge base overlay) = none := by
  obtain ⟨front, value, ⟨back, rfl⟩, proper, found, single⟩ := h
  have hf : front ≠ [] := by
    rintro rfl
    exact nomatch found
  have behind : back ≠ [] := by
    rintro rfl
    exact proper (List.append_nil front).symm
  have kept := find?_merge_of_eq_some hb ho found fun entries same => by
    rw [same] at single
    exact nomatch single
  rw [find?_append hf behind, kept, Option.bind_some, single, Option.bind_none]

theorem find?_merge_of_eq_none {path : List Text} (absent : find? path overlay = none)
    (tables : ¬ OnWay (·.entries? = none) path overlay)
    (upper : ¬ OnWay (·.isTaggedTable) path overlay) (lower : ¬ OnWay (·.isTaggedTable) path base) :
    find? path (Entries.merge base overlay) = find? path base := by
  induction path generalizing base overlay with
  | nil => rfl
  | cons segment rest ih =>
    cases rest with
    | nil => exact Entries.lookup_merge_of_eq_none hb ho absent
    | cons next rest =>
      cases here : overlay.lookup segment with
      | none => rw [find?_cons, find?_cons, Entries.lookup_merge_of_eq_none hb ho here]
      | some held =>
        obtain ⟨inner, table⟩ : ∃ inner, held.entries? = some inner := by
          rw [← Option.ne_none_iff_exists']
          exact fun single => tables (onWay_of_head here single next rest)
        obtain rfl := Value.eq_mapping_of_entries? (free_of_not_onWay upper held here) table
        rw [find?_cons, here] at absent
        rw [find?_merge_cons hb ho here, find?_cons_of_free (free_of_not_onWay lower)]
        exact ih (hb.below segment) (ho.inner here) absent
          (fun below => tables (onWay_of_inner here below))
          (fun below => upper (onWay_of_inner here below))
          (fun below => lower (onWay_of_tableOf below))

end

/-! ### Overlaying -/

/-- What a theme holds after another one has gone over it. Doing that again changes nothing, and an
empty theme changes nothing from either side. -/
theorem merge_laws {b o : Theme} (hb : b.WellKeyed) (ho : o.WellKeyed) :
    (∀ p value, o.get? p = some value → (∀ entries, value ≠ .mapping entries) →
      (b.merge o).get? p = some value) ∧
    (∀ p, OnWay (·.entries? = none) (segments p) o.entries → (b.merge o).get? p = none) ∧
    (∀ p, o.get? p = none → ¬ OnWay (·.entries? = none) (segments p) o.entries →
      ¬ OnWay (·.isTaggedTable) (segments p) o.entries →
      ¬ OnWay (·.isTaggedTable) (segments p) b.entries → (b.merge o).get? p = b.get? p) ∧
    (b.merge o).name = (o.name <|> b.name) ∧
    (b.merge o).sourcePath = (o.sourcePath <|> b.sourcePath) ∧
    (b.merge o).merge o = b.merge o ∧ b.merge {} = b ∧ ({} : Theme).merge b = b := by
  refine ⟨fun p value => find?_merge_of_eq_some hb ho, fun p => find?_merge_of_onWay hb ho,
    fun p => find?_merge_of_eq_none hb ho, rfl, rfl, ?_, rfl, ?_⟩
  · rw [merge, merge, Entries.merge_merge hb ho]
    cases o.name <;> cases o.sourcePath <;> rfl
  · simp [merge, Entries.merge_nil_left hb]

theorem merge_laws_builtin :
    let o := ((({ name := some "dark" } : Theme).set "colors.red" (.string "#f00")).set
      "padding" .null).set "el.width.full" (.tagged "t" (.mapping []))
    let t := builtin.merge o
    t.get? "colors.red" = some (.string "#f00") ∧
      t.get? "el.width.full" = some (.tagged "t" (.mapping [])) ∧ t.get? "padding.left" = none ∧
      t.get? "colors.blue" = some (.string "blue") ∧ t.name = some "dark" ∧ t.sourcePath = none ∧
      t.merge o = t ∧ builtin.merge {} = builtin ∧ ({} : Theme).merge builtin = builtin := by
  intro o t
  have keyed : o.WellKeyed :=
    ((WellKeyed.set (t := { name := some "dark" }) Entries.wellKeyed_nil "colors.red"
      (.string "#f00")).set "padding" .null).set "el.width.full"
        (.tagged "t" (Value.wellKeyed_mapping_iff.2 Entries.wellKeyed_nil))
  obtain ⟨upper, hidden, lower, name, source, laws⟩ := merge_laws wellKeyed_builtin keyed
  exact ⟨upper "colors.red" _ rfl (by simp), upper "el.width.full" _ rfl (by simp),
    hidden "padding.left" (by decide), lower "colors.blue" rfl (by decide) (by decide) (by decide),
    name, source, laws⟩

end Theme
end StyledText

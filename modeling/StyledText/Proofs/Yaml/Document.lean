import StyledText.Yaml.Document
import StyledText.Proofs.Yaml.Entries

/-!
# Keys of documents

A document that names a key twice is refused, so in every value that is read the keys of each
mapping differ.
-/
namespace StyledText.Yaml

/-- Where the reading succeeds, its result has the property. -/
def Yields {α : Type} (P : α → Prop) (reading : StateT ℕ (Except Fault) α) : Prop :=
  ∀ steps result, reading.run steps = .ok result → P result.1

namespace Yields

variable {α β : Type} {P : α → Prop} {Q : β → Prop}

theorem pure {a : α} (h : P a) : Yields P (Pure.pure a) := by
  rintro steps result ⟨⟩
  exact h

theorem throw (fault : Fault) : Yields P (throw fault) := by
  rintro steps result ⟨⟩

theorem lift {reading : Except Fault α} (h : ∀ a, reading = .ok a → P a) :
    Yields P (liftM reading) := by
  intro steps result succeeds
  cases reading with
  | error fault => exact nomatch succeeds
  | ok a =>
    cases succeeds
    exact h a rfl

theorem bind {reading : StateT ℕ (Except Fault) α} {next : α → StateT ℕ (Except Fault) β}
    (first : Yields P reading) (second : ∀ a, P a → Yields Q (next a)) :
    Yields Q (reading >>= next) := by
  intro steps result succeeds
  rw [StateT.run_bind] at succeeds
  cases read : reading.run steps with
  | error fault =>
    rw [read] at succeeds
    exact nomatch succeeds
  | ok between =>
    rw [read] at succeeds
    exact second between.1 (first steps between read) between.2 result succeeds

theorem of_run' {reading : StateT ℕ (Except Fault) α} (h : Yields P reading) {steps : ℕ} {a : α}
    (succeeds : reading.run' steps = .ok a) : P a := by
  rw [StateT.run'_eq] at succeeds
  cases read : reading.run steps with
  | error fault =>
    rw [read] at succeeds
    exact nomatch succeeds
  | ok result =>
    rw [read] at succeeds
    cases succeeds
    exact h steps result read

theorem any (reading : StateT ℕ (Except Fault) α) : Yields (fun _ => True) reading :=
  fun _ _ _ => trivial

theorem mapM {f : β → StateT ℕ (Except Fault) α} {items : List β} (h : ∀ b, Yields P (f b)) :
    Yields (fun values => ∀ v ∈ values, P v) (items.mapM f) := by
  induction items with
  | nil => exact pure (by simp)
  | cons item items ih =>
    rw [List.mapM_cons]
    refine bind (h item) fun value first => bind ih fun values rest => pure ?_
    exact List.forall_mem_cons.2 ⟨first, rest⟩

theorem foldlM {f : α → β → StateT ℕ (Except Fault) α} {items : List β}
    (h : ∀ a b, P a → Yields P (f a b)) {start : α} (holds : P start) :
    Yields P (items.foldlM f start) := by
  induction items generalizing start with
  | nil => exact pure holds
  | cons item items ih =>
    rw [List.foldlM_cons]
    exact bind (h start item holds) fun next => ih

end Yields

theorem Entries.WellKeyed.concat {entries : Entries} (h : entries.WellKeyed) {key value : Value}
    (hk : key.WellKeyed) (hv : value.WellKeyed) (new : (get? key entries).isSome = false) :
    WellKeyed (entries ++ [(key, value)]) := by
  rw [Option.isSome_eq_false_iff, Option.isNone_iff_eq_none] at new
  rw [← put_of_get?_eq_none new]
  exact h.put hk hv

namespace Schema

theorem wellKeyed_plain (t : Text) : ∀ v, plain t = .ok v → v.WellKeyed := by
  fun_cases plain t <;> rintro v ⟨⟩ <;> constructor

theorem wellKeyed_tagged (tag : TagBytes) (t : Text) (style : ScalarStyle) :
    ∀ v, tagged tag t style = .ok v → v.WellKeyed := by
  fun_cases tagged tag t style
  case case9 => exact wellKeyed_plain t
  all_goals rintro v ⟨⟩ <;> constructor

theorem wellKeyed_scalar (tag : Option TagBytes) (t : Text) (style : ScalarStyle) :
    ∀ v, scalar tag t style = .ok v → v.WellKeyed := by
  rw [scalar.eq_def]
  split
  · intro v read
    dsimp only at read
    split at read
    · cases inner : plain t with
      | error fault =>
        rw [inner] at read
        exact nomatch read
      | ok value =>
        rw [inner] at read
        cases read
        exact .tagged _ (wellKeyed_plain t value inner)
    · cases read
      exact .tagged _ (.string t)
  · exact wellKeyed_tagged _ t style
  · split
    · exact wellKeyed_plain t
    · rintro v ⟨⟩
      exact .string t

end Schema

namespace Value

theorem wellKeyed_underTag (tag : Option TagBytes) {value : Value} (h : value.WellKeyed) :
    (underTag tag value).WellKeyed := by
  rw [underTag]
  split
  · exact .tagged _ h
  · exact h

theorem wellKeyed_ofNode (d : Document) (depth : ℕ) (node : Linked) :
    Yields WellKeyed (ofNode d depth node) := by
  induction depth using Nat.strongRecOn generalizing node with
  | _ depth below =>
    rw [ofNode.eq_def]
    extract_lets content
    have keyed : ∀ u, Yields WellKeyed (content u) := by
      intro u
      dsimp only [content]
      split
      · exact .throw _
      · exact .lift (Schema.wellKeyed_scalar _ _ _)
      · exact .throw _
      · exact .throw _
      · next tag items depth _ =>
        refine .bind (.mapM (below depth depth.lt_succ_self)) fun values each => .pure ?_
        exact wellKeyed_underTag tag (.sequence each)
      · next tag entries depth _ =>
        refine .bind (.foldlM (P := Entries.WellKeyed) ?_ Entries.wellKeyed_nil)
          fun done keyed => .pure (wellKeyed_underTag tag (wellKeyed_mapping_iff.2 keyed))
        rintro done ⟨key, value⟩ keyed
        refine .bind (below depth depth.lt_succ_self key) fun key hk => ?_
        split
        · exact .bind (.throw .duplicate) fun _ => False.elim
        · next new =>
          refine .bind (below depth depth.lt_succ_self value) fun value hv => .pure ?_
          exact keyed.concat hk hv (by simpa using new)
    split
    · refine .bind (.any get) fun steps _ => ?_
      split <;> exact .bind (.any _) fun u _ => keyed u
    · exact keyed ()

theorem wellKeyed_parse {text : Text} {value : Value} (h : parse text = .ok value) :
    value.WellKeyed := by
  rw [parse] at h
  cases read : Document.read text with
  | error fault =>
    rw [read] at h
    exact nomatch h
  | ok d =>
    rw [read] at h
    dsimp only [bind, Except.bind] at h
    split at h
    · cases h
      exact .null
    · next node _ => exact (wellKeyed_ofNode d 128 node).of_run' h

end Value

end StyledText.Yaml

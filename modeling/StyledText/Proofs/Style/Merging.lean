import Mathlib.Data.List.Induction
import StyledText.Element.Run
import StyledText.Proofs.Style.Paint

/-!
# Laying attributes over one another

Attributes are optional fields and a set of decorations. Laying one set over another chooses in
every field alike, so the laws of a choice between optional values are the laws of overlays, and a
run that is styled again and again is styled by one overlay.
-/
namespace StyledText

namespace Style

/-! ### Sets of decorations -/

namespace Decorations

theorem mem_toList_union {s t : Decorations} {d : Decoration} :
    d ∈ (s.union t).toList ↔ d ∈ s.toList ∨ d ∈ t.toList := by
  simp only [mem_toList, union, Bool.or_eq_true]

theorem empty_union (s : Decorations) : empty.union s = s := rfl

theorem union_empty (s : Decorations) : s.union empty = s :=
  Decorations.ext (funext fun d => Bool.or_false (s.contains d))

theorem union_self (s : Decorations) : s.union s = s :=
  Decorations.ext (funext fun d => Bool.or_self (s.contains d))

theorem union_assoc (s t u : Decorations) : (s.union t).union u = s.union (t.union u) :=
  Decorations.ext (funext fun d => Bool.or_assoc (s.contains d) (t.contains d) (u.contains d))

end Decorations

/-! ### Fields -/

/-- A field that may be unset. -/
inductive Field where
  | color | background | paddingLeft | paddingRight | marginLeft | marginRight | width | align
  | display

/-- What a field holds where it is set. -/
def Field.Value : Field → Type
  | color => Text
  | background => Text
  | paddingLeft => ℕ
  | paddingRight => ℕ
  | marginLeft => ℕ
  | marginRight => ℕ
  | width => Width
  | align => Align
  | display => Display

namespace Attributes

def get (a : Attributes) : (f : Field) → Option f.Value
  | .color => a.color
  | .background => a.background
  | .paddingLeft => a.paddingLeft
  | .paddingRight => a.paddingRight
  | .marginLeft => a.marginLeft
  | .marginRight => a.marginRight
  | .width => a.width
  | .align => a.align
  | .display => a.display

/-- Attributes are their decorations and their fields. -/
theorem eq_of_get {a b : Attributes} (decorations : a.decorations = b.decorations)
    (fields : ∀ f, a.get f = b.get f) : a = b := by
  cases a
  cases b
  rw [mk.injEq]
  exact ⟨fields .color, fields .background, decorations, fields .paddingLeft,
    fields .paddingRight, fields .marginLeft, fields .marginRight, fields .width, fields .align,
    fields .display⟩

theorem get_empty (f : Field) : ({} : Attributes).get f = none := by
  cases f <;> rfl

/-- A field of an overlay is that of the upper attributes where it is set there. -/
theorem get_merge (a b : Attributes) (f : Field) : (a.merge b).get f = (b.get f).or (a.get f) := by
  cases f <;> exact Option.orElse_eq_or

/-! ### Laws of overlays -/

theorem empty_merge (a : Attributes) : merge {} a = a := by
  refine eq_of_get (Decorations.empty_union a.decorations) fun f => ?_
  rw [get_merge, get_empty, Option.or_none]

theorem merge_empty (a : Attributes) : a.merge {} = a := by
  refine eq_of_get (Decorations.union_empty a.decorations) fun f => ?_
  rw [get_merge, get_empty, Option.none_or]

theorem merge_self (a : Attributes) : a.merge a = a := by
  refine eq_of_get (Decorations.union_self a.decorations) fun f => ?_
  rw [get_merge, Option.or_self]

theorem merge_assoc (a b c : Attributes) : (a.merge b).merge c = a.merge (b.merge c) := by
  refine eq_of_get (Decorations.union_assoc a.decorations b.decorations c.decorations) fun f => ?_
  rw [get_merge, get_merge, get_merge, get_merge, Option.or_assoc]

/-- What is done to the values of a field when both colors are replaced. -/
def recolor (g : Text → Text) : (f : Field) → f.Value → f.Value
  | .color => g
  | .background => g
  | .paddingLeft | .paddingRight | .marginLeft | .marginRight | .width | .align | .display => id

theorem get_mapColors (g : Text → Text) (a : Attributes) (f : Field) :
    (a.mapColors g).get f = (a.get f).map (recolor g f) := by
  cases f with
  | color | background => rfl
  | paddingLeft | paddingRight | marginLeft | marginRight | width | align | display =>
    exact Option.map_id_apply.symm

theorem mapColors_merge (g : Text → Text) (a b : Attributes) :
    (a.merge b).mapColors g = (a.mapColors g).merge (b.mapColors g) := by
  refine eq_of_get rfl fun f => ?_
  rw [get_mapColors, get_merge, get_merge, get_mapColors, get_mapColors, Option.map_or]

end Attributes
end Style

namespace Run

open Style

theorem styles_styles (r : Run) (a b : Attributes) :
    (r.styles a).styles b = r.styles (a.merge b) := by
  rw [styles, styles, styles, Attributes.merge_assoc]

/-- However many overlays are laid on a run, and in whatever order, they are one overlay. -/
theorem foldl_styles (r : Run) (overlays : List Attributes) :
    overlays.foldl styles r = r.styles (overlays.foldl Attributes.merge {}) := by
  induction overlays using List.reverseRecOn with
  | nil => rw [List.foldl_nil, List.foldl_nil, styles, Attributes.merge_empty]
  | append_singleton overlays last ih =>
    rw [List.foldl_concat, List.foldl_concat, ih, styles_styles]

end Run

/-- Attributes are a monoid under overlaying, with a choice in each field and the union of the
decorations. A theme resolves the colors of an overlay part by part, and a run styled by one
overlay after another is the run styled by all of them laid together. -/
theorem Style.Attributes.merge_monoid :
    (∀ a : Attributes, merge {} a = a ∧ a.merge {} = a ∧ a.merge a = a) ∧
      (∀ a b c : Attributes, (a.merge b).merge c = a.merge (b.merge c)) ∧
      (∀ (a b : Attributes) (f : Field), (a.merge b).get f = (b.get f).or (a.get f)) ∧
      (∀ (a b : Attributes) (d : Decoration), d ∈ (a.merge b).decorations.toList ↔
        d ∈ a.decorations.toList ∨ d ∈ b.decorations.toList) ∧
      (∀ (theme : Theme) (a b : Attributes), theme.resolveColors (a.merge b) =
        (theme.resolveColors a).merge (theme.resolveColors b)) ∧
      ∀ (r : Run) (c : Context), (∀ a b : Attributes,
          ((r.styles a).styles b).render c = (r.styles (a.merge b)).render c) ∧
        ∀ overlays : List Attributes, (overlays.foldl Run.styles r).render c =
          (r.styles (overlays.foldl merge {})).render c := by
  refine ⟨fun a => ⟨empty_merge a, merge_empty a, merge_self a⟩, merge_assoc, get_merge,
    fun a b d => Decorations.mem_toList_union, fun theme a b => mapColors_merge _ a b,
    fun r c => ⟨fun a b => ?_, fun overlays => ?_⟩⟩
  · rw [Run.styles_styles]
  · rw [Run.foldl_styles]

end StyledText

import StyledText.Shortcode.Builtin
import StyledText.Theme.Builtin
import StyledText.Proofs.Markup.Expansion
import StyledText.Proofs.Markup.Registry
import StyledText.Proofs.Style.Drawing

/-!
# What built-in tags do

A spacing tag puts spaces around its content. Any other built-in tag draws its content once more
and shows nothing else, so that expanding a plain text shows what the spacing tags alone make of
it.
-/
namespace StyledText.Shortcode

open Markup Style Escape

def spacingNames : List Text :=
  ["p", "px", "pl", "pr", "m", "mx", "ml", "mr"].map String.toList

/-- The built-in tags without decorations, links and colors. -/
def spacingOnly : Registry Theme := builtin.restrict fun name => spacingNames.contains name

theorem handler_cases {name : Text} {handler : Handler Theme}
    (found : builtin.get? name = some handler) :
    (name ∉ spacingNames ∧ ((∃ d, handler = decorationHandler d) ∨ handler = anchorHandler ∨
      handler = colorHandler (fun color => { color := some color }) ∨
      handler = colorHandler (fun color => { background := some color }))) ∨
    (name ∈ spacingNames ∧ ∃ group sides, handler = spacingHandler group sides) := by
  have listed := Registry.mem_of_get?_ofList found
  rw [List.append_assoc, List.mem_append, List.mem_append] at listed
  rcases listed with decoration | other | spacing
  · obtain ⟨⟨key, d⟩, mem, entry⟩ := List.mem_map.1 decoration
    obtain ⟨rfl, rfl⟩ := Prod.mk.inj entry
    have apart : ∀ entry ∈ decorationNames, entry.1 ∉ spacingNames := by decide
    exact .inl ⟨apart _ mem, .inl ⟨d, rfl⟩⟩
  · simp only [otherHandlers, List.mem_cons, Prod.mk.injEq, List.not_mem_nil, or_false] at other
    rcases other with ⟨rfl, rfl⟩ | ⟨rfl, rfl⟩ | ⟨rfl, rfl⟩ | ⟨rfl, rfl⟩
    · exact .inl ⟨by decide, .inr (.inl rfl)⟩
    · exact .inl ⟨by decide, .inr (.inl rfl)⟩
    · exact .inl ⟨by decide, .inr (.inr (.inl rfl))⟩
    · exact .inl ⟨by decide, .inr (.inr (.inr rfl))⟩
  · obtain ⟨group, -, inGroup⟩ := List.mem_flatMap.1 spacing
    obtain ⟨sides, -, entry⟩ := List.mem_map.1 inGroup
    obtain ⟨rfl, rfl⟩ := Prod.mk.inj entry
    exact .inr ⟨by cases group <;> cases sides <;> decide, group, sides, rfl⟩

theorem get?_spacingOnly_of_notMem {name : Text} (notSpacing : name ∉ spacingNames) :
    spacingOnly.get? name = none := by
  rw [spacingOnly, Registry.get?_restrict, if_neg (by simpa using notSpacing)]

theorem exists_spacingHandler {name : Text} (spaces : name ∈ spacingNames) :
    ∃ group sides, builtin.get? name = some (spacingHandler group sides) ∧
      spacingOnly.get? name = some (spacingHandler group sides) := by
  have present : ∀ name ∈ spacingNames, (builtin.get? name).isSome := by decide
  obtain ⟨handler, found⟩ := Option.isSome_iff_exists.1 (present name spaces)
  have kept : spacingOnly.get? name = some handler := by
    rw [spacingOnly, Registry.get?_restrict, if_pos (by simpa using spaces), found]
  rcases handler_cases found with ⟨other, -⟩ | ⟨-, group, sides, rfl⟩
  · exact absurd spaces other
  · exact ⟨group, sides, found, kept⟩

/-- What a tag that is no spacing tag makes of its content. An address is taken from a parameter. -/
inductive Wrapped (input content : Text) : Text → Prop
  | same : Wrapped input content content
  | decorated (d : Decoration) : Wrapped input content (decorate d content)
  | linked {address : Text} (inside : address ⊆ input) :
      Wrapped input content (hyperlink address content)
  | painted (a : Attributes) : Wrapped input content (paint a content)

theorem Wrapped.drawn {input content visible t : Text} (wrapped : Wrapped input content t)
    (plain : Plain input) (h : Drawn content visible) : Drawn t visible := by
  cases wrapped with
  | same => exact h
  | decorated d => exact h.decorate d
  | linked inside => exact h.hyperlink (plain.mono inside)
  | painted a => exact h.paint a

section
variable (theme : Theme) {name content visible : Text} (parameters : Parameters)
  (selfClosing : Bool)

theorem wrapped_colorHandler (put : Text → Attributes) (input content : Text) :
    Wrapped input content (colorHandler put ⟨name, parameters, content, selfClosing⟩ theme) := by
  obtain ⟨unnamed, named⟩ := parameters
  match unnamed with
  | none => exact .same
  | some [] => exact .same
  | some (c :: cs) => exact .painted _

theorem wrapped_anchorHandler {input : Text} (within : parameters.Within input) (content : Text) :
    Wrapped input content (anchorHandler ⟨name, parameters, content, selfClosing⟩ theme) := by
  simp only [anchorHandler]
  split
  · next address found =>
    refine .linked ?_
    rcases named : parameters.get? "href".toList with _ | value
    · rw [named] at found
      exact within.unnamed address found
    · rw [named] at found
      obtain ⟨entry, mem, rfl⟩ := Option.map_eq_some_iff.1 named
      cases found
      exact (within.named entry (List.mem_of_find?_eq_some mem)).2
  · exact .same

theorem wrapped_apply (notSpacing : name ∉ spacingNames) {input : Text}
    (within : parameters.Within input) (content : Text) :
    Wrapped input content (builtin.apply theme ⟨name, parameters, content, selfClosing⟩) := by
  simp only [Registry.apply]
  split
  · next handler found =>
    rcases handler_cases found with ⟨-, styling⟩ | ⟨spacing, -⟩
    · rcases styling with ⟨d, rfl⟩ | rfl | rfl | rfl
      · exact .decorated d
      · exact wrapped_anchorHandler theme parameters selfClosing within content
      · exact wrapped_colorHandler theme parameters selfClosing _ input content
      · exact wrapped_colorHandler theme parameters selfClosing _ input content
    · exact absurd spacing notSpacing
  · exact .same

/-- The spacing tags pass over any other. -/
theorem apply_spacingOnly_of_notMem (notSpacing : name ∉ spacingNames) :
    spacingOnly.apply theme ⟨name, parameters, content, selfClosing⟩ = content := by
  simp [Registry.apply, get?_spacingOnly_of_notMem notSpacing]

/-- A spacing tag pads its content, and is kept among the spacing tags. -/
theorem apply_spacing (spaces : name ∈ spacingNames) :
    ∃ left right, ∀ content,
      builtin.apply theme ⟨name, parameters, content, selfClosing⟩ =
          Layout.pad content left right ∧
        spacingOnly.apply theme ⟨name, parameters, content, selfClosing⟩ =
          Layout.pad content left right := by
  obtain ⟨group, sides, found, kept⟩ := exists_spacingHandler spaces
  refine ⟨(spacing group sides parameters theme).1, (spacing group sides parameters theme).2,
    fun content => ?_⟩
  simp [Registry.apply, found, kept, spacingHandler]

theorem keeps_drawn {input : Text} (plain : Plain input) :
    Keeps input builtin spacingOnly theme theme Drawn where
  text t inside := .plain (plain.mono inside)
  append _ _ _ _ first second := .append first second
  apply name parameters selfClosing content visible within h := by
    by_cases spaces : name ∈ spacingNames
    · obtain ⟨left, right, padded⟩ := apply_spacing theme parameters selfClosing spaces
      rw [(padded content).1, (padded visible).2]
      exact h.pad left right
    · have wrapped := wrapped_apply theme parameters selfClosing spaces within content
      rw [apply_spacingOnly_of_notMem theme parameters selfClosing spaces]
      exact wrapped.drawn plain h

theorem drawn_expand {text : Text} (plain : Plain text) :
    Drawn (Shortcodes.expand { theme := theme } text) (Markup.expand spacingOnly theme text) :=
  (keeps_drawn theme plain).expand

/-- Without its escape sequences, what the built-in tags make of a plain text is what the spacing
tags make of it. -/
theorem strip_expand {text : Text} (plain : Plain text) :
    Escape.strip (Shortcodes.expand { theme := theme } text) =
      Markup.expand spacingOnly theme text :=
  (drawn_expand theme plain).strip_eq

/-- A tag that is never closed stays in the text, and so does one that was never opened. -/
theorem strip_expand_crossing :
    Escape.strip (Shortcodes.expand { theme := Theme.builtin }
        "[a=\"x\"]A[b][/a]B[/i]".toList) =
      "A[b]B[/i]".toList := by
  have shown := strip_expand Theme.builtin
    (show Plain "[a=\"x\"]A[b][/a]B[/i]".toList from
      ⟨by decide, by decide⟩)
  rw [shown]
  decide +kernel

end

/-! ### Tags by name -/

theorem get?_decoration (d : Decoration) : builtin.get? d.name = some (decorationHandler d) := by
  cases d <;> rfl

theorem get?_color :
    builtin.get? "color".toList = some (colorHandler fun name => { color := some name }) := rfl

theorem get?_background :
    builtin.get? "bg".toList = some (colorHandler fun name => { background := some name }) := rfl

end StyledText.Shortcode

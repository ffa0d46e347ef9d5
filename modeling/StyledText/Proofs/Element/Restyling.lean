import StyledText.Proofs.Element.Drawing
import StyledText.Proofs.Theme.Paths

/-!
# Restyling

Styling an element anew changes nothing that it shows: neither other colors in the theme nor other
colors, decorations and addresses of the element move a character. Every decision on the layout
depends on the visible text, the width and entries of the theme that hold no colors.
-/
namespace StyledText

open Style Escape

/-- Paths below which a theme holds nothing but colors. -/
def Theme.stylePaths : List Text := ["colors", "alert.type", "heading.color"].map String.toList

theorem Theme.apart_stylePaths (table : Text) (single : '.' ∉ table)
    (other : table ∉ ["colors", "alert", "heading"].map String.toList) (name : Text) :
    ∀ p ∈ stylePaths, Apart p (table ++ '.' :: name) := by
  intro p mem
  apply apart_of_head?_ne
  rw [head?_segments single]
  simp only [stylePaths, List.map_cons, List.map_nil, List.mem_cons, List.not_mem_nil,
    or_false, not_or] at mem other
  intro same
  rcases mem with rfl | rfl | rfl
  · exact other.1 (Option.some.inj same).symm
  · exact other.2.1 (Option.some.inj same).symm
  · exact other.2.2 (Option.some.inj same).symm

section
variable {s t : Theme} (h : s.SameExcept Theme.stylePaths t)
include h

/-! ### Spacing tags -/

namespace Shortcode

open Markup

theorem multiplier_eq (group : Group) (side : Text) :
    multiplier s group side = multiplier t group side := by
  have apart : ∀ p ∈ Theme.stylePaths, Theme.Apart p (group.name ++ '.' :: side) := by
    cases group
    · exact Theme.apart_stylePaths _ (by decide) (by decide) side
    · exact Theme.apart_stylePaths _ (by decide) (by decide) side
  rw [multiplier, multiplier, h.getNumber?_eq _ apart]

theorem spacing_eq (group : Group) (sides : Sides) (parameters : Parameters) :
    spacing group sides parameters s = spacing group sides parameters t := by
  simp only [spacing, scaled, multiplier_eq h]

theorem apply_spacingOnly_eq (invocation : Invocation) :
    spacingOnly.apply s invocation = spacingOnly.apply t invocation := by
  by_cases spaces : invocation.name ∈ spacingNames
  · obtain ⟨group, sides, -, kept⟩ := exists_spacingHandler spaces
    simp only [Registry.apply, kept, spacingHandler, spacing_eq h]
  · have refused := get?_spacingOnly_of_notMem spaces
    simp only [Registry.apply, refused]

theorem expand_spacingOnly_eq (text : Text) :
    Markup.expand spacingOnly s text = Markup.expand spacingOnly t text := by
  have keeps : Keeps text spacingOnly spacingOnly s t Eq := {
    text := fun _ _ => rfl
    append := fun _ _ _ _ first second => by rw [first, second]
    apply := fun _ _ _ _ _ _ content => by rw [content, apply_spacingOnly_eq h] }
  exact keeps.expand

end Shortcode

/-! ### Settings of the layout -/

theorem getOr_setting_eq {α : Type} (read : Yaml.Value → Option α) (name : Text) (fallback : α) :
    s.getOr read (Run.setting name) fallback = t.getOr read (Run.setting name) fallback := by
  have apart : ∀ p ∈ Theme.stylePaths, Theme.Apart p (Run.setting name) :=
    Theme.apart_stylePaths "el" (by decide) (by decide) name
  exact h.getOr_eq _ apart read fallback

end

/-! ### Elements -/

/-- Two contexts with the built-in tags and one layout width, whose themes differ in colors
alone. -/
structure Context.Restyled (c₁ c₂ : Context) : Prop where
  tags₁ : c₁.shortcodes.registry = Shortcode.builtin
  tags₂ : c₂.shortcodes.registry = Shortcode.builtin
  theme : c₁.theme.SameExcept Theme.stylePaths c₂.theme
  width : c₁.width = c₂.width

/-- The attributes without colors and decorations. -/
def Style.Attributes.unstyled (a : Attributes) : Attributes :=
  { a with color := none, background := none, decorations := .empty }

/-- The second element differs from the first in colors and decorations, and in the address of its
link. A link without text shows its address and has to keep it. -/
inductive Element.Restyled : Element → Element → Prop
  | run {r₁ r₂ : Run} (value : r₁.value = r₂.value)
      (attributes : r₁.attributes.unstyled = r₂.attributes.unstyled) : Restyled (.run r₁) (.run r₂)
  | alert (a : Alert) : Restyled (.alert a) (.alert a)
  | heading (h : Heading) : Restyled (.heading h) (.heading h)
  | link {l₁ l₂ : Link} (nonempty : l₁.text ≠ []) (text : l₁.text = l₂.text)
      (attributes : l₁.attributes.unstyled = l₂.attributes.unstyled) :
      Restyled (.link l₁) (.link l₂)

section
variable {c₁ c₂ : Context} (h : c₁.Restyled c₂)
include h

theorem Context.shown_eq (text : Text) : c₁.shown text = c₂.shown text :=
  Shortcode.expand_spacingOnly_eq h.theme text

theorem Run.shown_eq (r : Run) : r.shown c₁ = r.shown c₂ := by
  simp only [Run.shown, Run.inner, Run.spacing, Run.align, Run.display, getOr_setting_eq h.theme,
    Context.shown_eq h, h.width]

theorem Run.shown_eq_of_unstyled {r₁ r₂ : Run} (value : r₁.value = r₂.value)
    (attributes : r₁.attributes.unstyled = r₂.attributes.unstyled) : r₁.shown c₁ = r₂.shown c₂ := by
  have unstyled (r : Run) (c : Context) :
      r.shown c = Run.shown { value := r.value, attributes := r.attributes.unstyled } c := rfl
  rw [unstyled r₁, unstyled r₂, value, attributes, Run.shown_eq h]

theorem Alert.columns_eq (a : Alert) : a.columns c₁ = a.columns c₂ := by
  have width (fallback : ℕ) := h.theme.getOr_eq "alert.width" (by decide)
    Yaml.Value.count? fallback
  have full (fallback : Bool) := h.theme.getOr_eq "alert.width-full" (by decide)
    Yaml.Value.bool? fallback
  rw [Alert.columns, Alert.columns, width, full, h.width]

theorem Alert.shown_eq (a : Alert) : a.shown c₁ = a.shown c₂ := by
  have columns := Alert.columns_eq h a
  have alignment : a.alignment c₁ = a.alignment c₂ := by
    rw [Alert.alignment, Alert.alignment, h.theme.getOr_eq "alert.text-align" (by decide)]
  have filler : (a.filler c₁).shown c₁ = (a.filler c₂).shown c₂ :=
    Run.shown_eq_of_unstyled h rfl (by simp [Alert.filler, Attributes.unstyled, columns])
  have body : (a.body c₁).shown c₁ = (a.body c₂).shown c₂ :=
    Run.shown_eq_of_unstyled h rfl (by simp [Alert.body, Attributes.unstyled, columns, alignment])
  rw [Alert.shown, Alert.shown, filler, body]

theorem Heading.shown_eq (title : Heading) : title.shown c₁ = title.shown c₂ := by
  have size : title.effectiveSize c₁ = title.effectiveSize c₂ := by
    rw [Heading.effectiveSize, Heading.effectiveSize,
      h.theme.getOr_eq "heading.size" (by decide)]
  have lines : Heading.blankLines c₁ = Heading.blankLines c₂ := by
    rw [Heading.blankLines, Heading.blankLines,
      h.theme.getOr_eq "heading.spacing" (by decide)]
  rw [Heading.shown, Heading.shown, size, lines, Context.shown_eq h, h.width]

theorem Link.shown_eq {l₁ l₂ : Link} (nonempty : l₁.text ≠ []) (text : l₁.text = l₂.text)
    (attributes : l₁.attributes.unstyled = l₂.attributes.unstyled) : l₁.shown c₁ = l₂.shown c₂ := by
  refine Run.shown_eq_of_unstyled h ?_ attributes
  rw [Link.run, Link.run, if_neg nonempty, if_neg (text ▸ nonempty), text]

/-- Both elements are drawn and show the same. -/
theorem Element.exists_drawn_of_restyled {e₁ e₂ : Element} (restyled : e₁.Restyled e₂)
    (plain₁ : e₁.Plain c₁) (plain₂ : e₂.Plain c₂) :
    ∃ visible, Drawn (e₁.render c₁) visible ∧ Drawn (e₂.render c₂) visible := by
  cases restyled with
  | run value attributes =>
    have first := Run.drawn_shown h.tags₁ plain₁
    rw [Run.shown_eq_of_unstyled h value attributes] at first
    exact ⟨_, first, Run.drawn_shown h.tags₂ plain₂⟩
  | alert a =>
    have first := Alert.drawn_shown h.tags₁ plain₁
    rw [Alert.shown_eq h] at first
    exact ⟨_, first, Alert.drawn_shown h.tags₂ plain₂⟩
  | heading title =>
    have first := Heading.drawn_shown h.tags₁ plain₁
    rw [Heading.shown_eq h] at first
    exact ⟨_, first, Heading.drawn_shown h.tags₂ plain₂⟩
  | link nonempty text attributes =>
    have first := Link.drawn_shown h.tags₁ plain₁.1 plain₁.2
    rw [Link.shown_eq h nonempty text attributes] at first
    exact ⟨_, first, Link.drawn_shown h.tags₂ plain₂.1 plain₂.2⟩

/-- Without escape sequences the elements are rendered as the same text, and no ESC is left. -/
theorem strip_render_of_restyled {e₁ e₂ : Element} (restyled : e₁.Restyled e₂)
    (plain₁ : e₁.Plain c₁) (plain₂ : e₂.Plain c₂) :
    strip (e₁.render c₁) = strip (e₂.render c₂) ∧ esc ∉ strip (e₁.render c₁) := by
  obtain ⟨visible, first, second⟩ := Element.exists_drawn_of_restyled h restyled plain₁ plain₂
  rw [first.strip_eq, second.strip_eq]
  exact ⟨rfl, first.plain_visible.1⟩

end

/-- A tint that only the second theme knows, in a box that only the second run links. -/
theorem strip_render_of_restyled_tint :
    let first : Context := { shortcodes := { theme := Theme.builtin }, fixedWidth := some 9 }
    let theme := (Theme.builtin.set "colors.tint" (.string "#123456")).set "heading.color" .null
    let second : Context := { shortcodes := { theme }, detectedWidth := 9 }
    let value := "[bg=tint][pl=2]x[/pl][/bg]".toList
    let plain : Run := { value, attributes := { width := some .full, color := some "red" } }
    let linked : Run :=
      { value, attributes := { width := some .full, decorations := .ofList [.bold] },
        link := some "//x]" }
    strip ((Element.run plain).render first) = strip ((Element.run linked).render second) ∧
      esc ∉ strip ((Element.run plain).render first) := by
  intro first theme second value plain linked
  have themes : first.theme.SameExcept Theme.stylePaths second.theme :=
    ((Theme.SameExcept.refl Theme.builtin).set (p := "colors") (by decide) (by decide)
      (.string "#123456")).set (p := "heading.color") (by decide) (by decide) .null
  have contexts : first.Restyled second := ⟨rfl, rfl, themes, rfl⟩
  have addresses : ∀ address ∈ linked.link, Plain address := by
    intro address linked
    obtain rfl := Option.some.inj linked
    exact ⟨by decide, by decide⟩
  exact strip_render_of_restyled contexts (.run rfl rfl)
    ⟨⟨by decide, by decide⟩, by simp [plain]⟩ ⟨⟨by decide, by decide⟩, addresses⟩

end StyledText

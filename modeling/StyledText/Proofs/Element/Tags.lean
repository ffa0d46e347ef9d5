import StyledText.Element.Run
import StyledText.Proofs.Markup.Document
import StyledText.Proofs.Shortcode.Builtin
import StyledText.Proofs.Style.Merging
import StyledText.Proofs.Text.Splitting

/-!
# Styles as tags

The colors and decorations of a run can be written as tags around its markup: the foreground
outermost, then the background, then the decorations in the order of their declaration. Where the
theme has no table for runs, rendering the run is expanding these tags.
-/
namespace StyledText

open Markup Style

/-! ### Markup in tags -/

namespace Markup.TagHead

def wrap (head : TagHead) (inside : Text) : Text :=
  head.openingMarkup ++ inside ++ head.closingMarkup

variable (head : TagHead) {inside : Text} {children : List Node}

theorem wellNested_wrap (h : WellNested inside children) :
    WellNested (head.wrap inside)
      [.ofTag head.openingTag children (some head.closingTag.markup)] := by
  have pair := WellNested.pair head.whole_openingTag rfl head.whole_closingTag rfl rfl h .nil
  rw [List.append_nil] at pair
  rw [wrap, List.append_assoc]
  exact pair

theorem expand_wrap {C : Type} (r : Registry C) (context : C) (h : WellNested inside children) :
    Markup.expand r context (head.wrap inside) =
      r.apply context ⟨head.name, head.parameters, Markup.expand r context inside, false⟩ := by
  rw [(head.wellNested_wrap h).expand_eq, h.expand_eq, expandAll, Node.ofTag, expand_element]
  simp [expandAll, openingTag, parse_tail]

end Markup.TagHead

namespace Style

/-- The text in the tag of a decoration. -/
def Decoration.inTag (d : Decoration) (inside : Text) : Text :=
  '[' :: d.name ++ ']' :: inside ++ '[' :: '/' :: d.name ++ [']']

/-- The text in a tag with a color for its value, or alone without a color. -/
def inColorTag (name : Text) (color : Option Text) (inside : Text) : Text :=
  match color with
  | none => inside
  | some color =>
    '[' :: name ++ '=' :: '"' :: color ++ '"' :: ']' :: inside ++ '[' :: '/' :: name ++ [']']

/-- The text in tags for the colors and the decorations. -/
def Attributes.inTags (a : Attributes) (inside : Text) : Text :=
  inColorTag "color" a.color
    (inColorTag "bg" a.background (a.decorations.toList.foldr Decoration.inTag inside))

theorem Decoration.isName_name (d : Decoration) : isName d.name = true := by
  cases d <;> decide

section
variable (theme : Theme) {inside : Text} {children : List Node}

theorem expand_inTag (d : Decoration) (h : WellNested inside children) :
    (∃ nodes, WellNested (d.inTag inside) nodes) ∧
      Markup.expand Shortcode.builtin theme (d.inTag inside) =
        decorate d (Markup.expand Shortcode.builtin theme inside) := by
  let head : TagHead := ⟨d.name, none, [], d.isName_name, by simp⟩
  have markup : d.inTag inside = head.wrap inside := by
    simp [Decoration.inTag, head, TagHead.wrap, TagHead.openingMarkup, TagHead.closingMarkup,
      TagHead.tail]
  rw [markup]
  refine ⟨⟨_, head.wellNested_wrap h⟩, ?_⟩
  rw [head.expand_wrap Shortcode.builtin theme h, Registry.apply]
  simp only [head, Shortcode.get?_decoration]
  rfl

theorem expand_foldr_inTag (ds : List Decoration) (h : WellNested inside children) :
    (∃ nodes, WellNested (ds.foldr Decoration.inTag inside) nodes) ∧
      Markup.expand Shortcode.builtin theme (ds.foldr Decoration.inTag inside) =
        ds.foldr decorate (Markup.expand Shortcode.builtin theme inside) := by
  induction ds with
  | nil => exact ⟨⟨children, h⟩, rfl⟩
  | cons d ds ih =>
    obtain ⟨⟨nodes, nested⟩, expanded⟩ := ih
    have outer := expand_inTag theme d nested
    rw [List.foldr_cons, List.foldr_cons, ← expanded]
    exact outer

theorem expand_inColorTag {name : Text} (valid : isName name = true)
    (put : Option Text → Attributes) (unset : put none = {})
    (found : Shortcode.builtin.get? name =
      some (Shortcode.colorHandler fun color => put (some color)))
    {color : Option Text} (quotable : ∀ text ∈ color, text ≠ [] ∧ '"' ∉ text)
    (h : WellNested inside children) :
    (∃ nodes, WellNested (inColorTag name color inside) nodes) ∧
      Markup.expand Shortcode.builtin theme (inColorTag name color inside) =
        paint (put (color.map theme.resolveColor))
          (Markup.expand Shortcode.builtin theme inside) := by
  cases color with
  | none =>
    rw [Option.map_none, unset, paint_plain]
    exact ⟨⟨children, h⟩, rfl⟩
  | some text =>
    obtain ⟨nonempty, absent⟩ := quotable text rfl
    let head : TagHead := ⟨name, some ⟨text, '"', .inl rfl, absent⟩, [], valid, by simp⟩
    have markup : inColorTag name (some text) inside = head.wrap inside := by
      simp [inColorTag, head, TagHead.wrap, TagHead.openingMarkup, TagHead.closingMarkup,
        TagHead.tail, QuotedValue.print]
    rw [markup]
    refine ⟨⟨_, head.wellNested_wrap h⟩, ?_⟩
    rw [head.expand_wrap Shortcode.builtin theme h, Registry.apply]
    simp only [head, found]
    obtain ⟨c, cs, rfl⟩ := List.exists_cons_of_ne_nil nonempty
    rfl

/-- Expanding styles in tags is painting them. -/
theorem expand_inTags {a : Attributes} (color : ∀ text ∈ a.color, text ≠ [] ∧ '"' ∉ text)
    (background : ∀ text ∈ a.background, text ≠ [] ∧ '"' ∉ text) (h : WellNested inside children) :
    Markup.expand Shortcode.builtin theme (a.inTags inside) =
      paint (theme.resolveColors a) (Markup.expand Shortcode.builtin theme inside) := by
  obtain ⟨⟨_, decorated⟩, decorations⟩ := expand_foldr_inTag theme a.decorations.toList h
  obtain ⟨⟨_, filled⟩, fill⟩ := expand_inColorTag theme (by decide)
    (fun background => { background := background }) rfl Shortcode.get?_background background
    decorated
  obtain ⟨-, foreground⟩ := expand_inColorTag theme (by decide) (fun color => { color := color })
    rfl Shortcode.get?_color color filled
  rw [paint_eq_layers, Attributes.inTags, foreground, fill, decorations]
  rfl

end
end Style

/-! ### Runs without settings -/

/-- There is no table for runs in the theme. -/
def Theme.HasNoRunTable (theme : Theme) : Prop :=
  ∀ value, theme.get? "el" = some value → value.entries? = none

theorem get?_setting {theme : Theme} (h : theme.HasNoRunTable) (name : Text) :
    theme.get? (Run.setting name) = none := by
  have single : '.' ∉ "el".toList := by decide
  have path : Theme.segments (Run.setting name) = "el".toList :: Theme.segments name :=
    Text.splitAt_append_cons single name
  obtain ⟨segment, rest, below⟩ := List.exists_cons_of_ne_nil (Text.splitAt_ne_nil '.' name)
  rw [Theme.get?, path, Theme.segments, below, Theme.find?.eq_3 _ _ _ (by simp)]
  rcases found : theme.entries.lookup "el".toList with _ | value
  · rfl
  · have noEntries := h value found
    simp [noEntries]

namespace Run

/-- Styled by its attributes alone, a run is what the built-in tags make of its value in tags for
them. -/
theorem render_styles (c : Context) (tags : c.shortcodes.registry = Shortcode.builtin)
    (noTable : c.theme.HasNoRunTable) {markup : Text} {nodes : List Node}
    (nested : WellNested markup nodes) {color background : Option Text}
    (quotable : ∀ text ∈ color, text ≠ [] ∧ '"' ∉ text)
    (quotableBackground : ∀ text ∈ background, text ≠ [] ∧ '"' ∉ text)
    (decorations : Decorations) :
    (Run.styles { value := markup } { color, background, decorations }).render c =
      c.shortcodes.expand (Attributes.inTags { color, background, decorations } markup) := by
  have setting (α : Type) (read : Yaml.Value → Option α) (name : Text) (fallback : α) :
      c.theme.getOr read (setting name) fallback = fallback := by
    simp [Theme.getOr, get?_setting noTable]
  have unpadded (t : Text) : Layout.pad t 0 0 = t := by simp [Layout.pad, Text.spaces]
  have expanded (t : Text) : c.shortcodes.expand t = Markup.expand Shortcode.builtin c.theme t := by
    rw [Shortcodes.expand, tags]
    rfl
  rw [expanded, expand_inTags c.theme quotable quotableBackground nested, ← expanded, Run.styles,
    Attributes.empty_merge, Run.render]
  simp only [inner, spacing, display, setting, Option.getD_none, unpadded]
  rfl

/-- A color that no theme knows, with a bracket in it. -/
theorem render_styles_bracket :
    (Run.styles { value := "[i]]][/i]".toList }
        { color := some "]".toList, background := some "red".toList,
          decorations := .ofList [.dim, .bold] }).render { shortcodes := { theme := {} } } =
      Shortcodes.expand { theme := {} }
        "[color=\"]\"][bg=\"red\"][bold][dim][i]]][/i][/dim][/bold][/bg][/color]".toList := by
  have nested := wellNested_printAll
    [.pair ⟨"i".toList, none, [], rfl, by decide⟩ [.text "]".toList]]
  have written : Attributes.inTags
      { color := some "]".toList, background := some "red".toList,
        decorations := .ofList [.dim, .bold] } "[i]]][/i]".toList =
      "[color=\"]\"][bg=\"red\"][bold][dim][i]]][/i][/dim][/bold][/bg][/color]".toList := by
    decide
  rw [← written]
  exact render_styles { shortcodes := { theme := {} } } rfl (fun _ found => nomatch found) nested
    (by simp) (by simp) (.ofList [.dim, .bold])

end Run
end StyledText

import StyledText.Element.Link
import StyledText.Proofs.Element.Tags
import StyledText.Proofs.Markup.Leaves

/-!
# Links without text

A link without text shows its address with every bracket doubled. Main statement: the tree of that
text has no tag for a handler to run on, and the address is shown as it was given, whatever the
handlers and the brackets in it are.
-/
namespace StyledText

open Markup Style

/-! ### Text without tags -/

namespace Markup

namespace Nesting

/-- Without a tag among them, tokens are read one text after the other. -/
theorem foldl_step_of_not_isTag {tokens : List Token} (h : ∀ token ∈ tokens, token.isTag = false)
    (s : Nesting) :
    tokens.foldl step s = s.append (tokens.map fun token => .text token.text) := by
  induction tokens generalizing s with
  | nil => simp
  | cons token tokens ih =>
    obtain ⟨first, rest⟩ := List.forall_mem_cons.1 h
    have read : s.step token = s.append [.text token.text] := by
      cases token with
      | literal text => rfl
      | escaped bracket => rfl
      | tag tag => exact absurd first (by simp [Token.isTag])
    rw [List.foldl_cons, read, ih rest, append_append]
    rfl

end Nesting

theorem parse_of_not_hasTag {input : Text} (h : hasTag input = false) :
    parse input = (tokenize input).map fun token => .text token.text := by
  have untagged : ∀ token ∈ tokenize input, token.isTag = false := by
    simpa [hasTag] using h
  rw [parse, treeOf_eq_nesting, Nesting.treeOf, Nesting.foldl_step_of_not_isTag untagged,
    Nesting.finish_append]
  simp

theorem leavesAll_map_text (pieces : List Text) :
    leavesAll (pieces.map .text) = pieces.flatten := by
  induction pieces with
  | nil => simp
  | cons piece pieces ih => simp [Node.leaves, ih]

/-- The tree of a text with every bracket doubled is that text, cut into pieces. -/
theorem exists_parse_escape_eq (text : Text) :
    ∃ pieces : List Text, parse (escape text) = pieces.map .text ∧ pieces.flatten = text := by
  have tree : parse (escape text) = ((tokenize (escape text)).map Token.text).map .text := by
    rw [parse_of_not_hasTag (hasTag_escape text), List.map_map]
    rfl
  have leaves := expand_escape Registry.empty () text
  rw [expand_eq_expandAll, expandAll_empty, tree, leavesAll_map_text] at leaves
  exact ⟨_, tree, leaves⟩

end Markup

/-! ### Rendering -/

theorem Layout.pad_zero (t : Text) : Layout.pad t 0 0 = t := by simp [Layout.pad, Text.spaces]

/-- Without a box, without spacing and without settings of the theme, a run is its painted
content. -/
theorem Run.render_eq_paint (r : Run) (c : Context) (noTable : c.theme.HasNoRunTable)
    {color background : Option Text} {decorations : Decorations} {align : Option Align}
    (unboxed : r.attributes = { color, background, decorations, align }) :
    r.render c = paint (c.theme.resolveColors r.attributes) (r.content c) := by
  have unset (α : Type) (read : Yaml.Value → Option α) (name : Text) (fallback : α) :
      c.theme.getOr read (setting name) fallback = fallback := by
    rw [Theme.getOr, get?_setting noTable]
    rfl
  rw [Run.render, unboxed]
  simp only [inner, spacing, display, unset, Option.getD_none, Layout.pad_zero]

namespace Link

/-- A link without text and without a box shows its address as it is, whatever the registry of the
context holds: the address is behind the link and in its text, character by character, and no tag
is found in what is expanded. -/
theorem render_address (c : Context) (noTable : c.theme.HasNoRunTable) (address : Text)
    (color background : Option Text) (decorations : Decorations) (align : Option Align) :
    (Link.styles { text := [], address } { color, background, decorations, align }).render c =
        paint (c.theme.resolveColors { color, background, decorations, align })
          (Escape.hyperlink address address) ∧
      ∃ pieces : List Text, parse (Link.run { text := [], address }).value = pieces.map .text ∧
        pieces.flatten = address := by
  refine ⟨?_, exists_parse_escape_eq address⟩
  let attributes : Attributes := { color, background, decorations, align }
  have styled : Link.styles { text := [], address } attributes = ⟨[], address, attributes⟩ := by
    rw [Link.styles, Attributes.empty_merge]
  have content : (Link.run ⟨[], address, attributes⟩).content c =
      Escape.hyperlink address address := by
    have shown : c.expand (escape address) = address := expand_escape _ _ address
    simp only [Link.run, if_true, Run.content, shown]
  rw [styled, Link.render, Run.render_eq_paint _ c noTable rfl, content]
  rfl

/-- Tags of the registry and an escaped bracket are in the address. -/
theorem render_address_tags :
    Theme.HasNoRunTable {} ∧
      (Link.styles { text := [], address := "x/?q=[b]y[/b]]][[".toList }
          { color := some "red".toList, decorations := .ofList [.bold] }).render
          { shortcodes := { theme := {} } } =
        paint { color := some "red".toList, decorations := .ofList [.bold] }
          (Escape.hyperlink "x/?q=[b]y[/b]]][[".toList "x/?q=[b]y[/b]]][[".toList) := by
  have noTable : Theme.HasNoRunTable {} := fun _ found => nomatch found
  exact ⟨noTable, (render_address { shortcodes := { theme := {} } } noTable
    "x/?q=[b]y[/b]]][[".toList (some "red".toList) none (.ofList [.bold]) none).1⟩

end Link
end StyledText

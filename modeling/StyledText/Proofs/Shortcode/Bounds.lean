import StyledText.Markup.Strip
import StyledText.Proofs.Markup.Flattening
import StyledText.Proofs.Shortcode.Builtin

/-!
# How long markup can get

A registry whose handlers add a bounded number of characters to their content adds that many for
every element of the tree, and there are no more elements than tags. The spacing tags add two
sides of at most `maxSpacing` spaces each, whatever number they are given and whatever the theme
multiplies it by; the other built-in tags add nothing that is visible.
-/
namespace StyledText

namespace Markup

/-! ### Elements -/

mutual

/-- The elements of a node, at any depth. -/
def Node.elements : Node → ℕ
  | .text _ => 0
  | .element _ _ _ _ _ children => elementsAll children + 1

def elementsAll : List Node → ℕ
  | [] => 0
  | node :: nodes => node.elements + elementsAll nodes

end

@[simp] theorem elementsAll_append (first second : List Node) :
    elementsAll (first ++ second) = elementsAll first + elementsAll second := by
  induction first with
  | nil => simp [elementsAll]
  | cons node nodes ih => rw [List.cons_append, elementsAll, elementsAll, ih, Nat.add_assoc]

namespace Nesting

/-- Only a tag makes an element, and no more than one. -/
theorem elementsAll_finish_step (s : Nesting) (token : Token) :
    elementsAll (s.step token).finish ≤ elementsAll s.finish + if token.isTag then 1 else 0 := by
  rcases s.finish_step token with added | ⟨tag, rfl, -, added⟩ |
    ⟨tag, opening, front, children, rfl, -, -, before, closed⟩
  · simp [added, elementsAll, Node.elements]
  · simp [added, Node.ofTag, elementsAll, Node.elements, Token.isTag]
  · simp [before, closed, Node.ofTag, elementsAll, Node.elements, Token.isTag, Nat.add_assoc]

theorem elementsAll_treeOf_le (tokens : List Token) :
    elementsAll (treeOf tokens) ≤ tokens.countP Token.isTag := by
  have run (s : Nesting) : elementsAll (tokens.foldl step s).finish ≤
      elementsAll s.finish + tokens.countP Token.isTag := by
    induction tokens generalizing s with
    | nil => exact Nat.le_refl _
    | cons token tokens ih =>
      have first := s.elementsAll_finish_step token
      have rest := ih (s.step token)
      rw [List.foldl_cons, List.countP_cons]
      omega
  have all := run {}
  rw [treeOf]
  simpa [finish_nil, elementsAll] using all

end Nesting

theorem elementsAll_parse_le (input : Text) :
    elementsAll (parse input) ≤ (tokenize input).countP Token.isTag := by
  rw [parse_eq_nesting]
  exact Nesting.elementsAll_treeOf_le _

/-! ### Lengths -/

theorem length_text_le (token : Token) : token.text.length ≤ token.source.length := by
  cases token <;> simp [Token.text, Token.source]

theorem length_flattenAll_parse_le (input : Text) :
    (flattenAll (parse input)).length ≤ input.length := by
  have texts (tokens : List Token) :
      (tokens.flatMap Token.text).length ≤ (tokens.flatMap Token.source).length := by
    induction tokens with
    | nil => exact Nat.le_refl _
    | cons token tokens ih =>
      have first := length_text_le token
      rw [List.flatMap_cons, List.flatMap_cons, List.length_append, List.length_append]
      omega
  have all := texts (tokenize input)
  rwa [flatMap_source_tokenize, ← (flattenAll_parse input).1] at all

section
variable {C : Type} {r : Registry C} {context : C} {most : ℕ}

/-- A registry makes a text at most so much longer than its content. -/
def Registry.AddsAtMost (r : Registry C) (context : C) (most : ℕ) : Prop :=
  ∀ occurrence, (r.apply context occurrence).length ≤ occurrence.content.length + most

mutual

theorem length_expand_node_le (h : r.AddsAtMost context most) (node : Node) :
    (node.expand r context).length ≤ node.flatten.length + most * node.elements := by
  cases node with
  | text content => simp [Node.expand, Node.flatten]
  | element name parameters selfClosing opening closing children =>
    have inside := length_expandAll_le h children
    have outside : _ ≤ (expandAll r context children).length + most :=
      h ⟨name, parameters, expandAll r context children, selfClosing⟩
    rw [expand_element, Node.flatten, Node.elements, Nat.mul_add, List.length_append,
      List.length_append]
    omega

theorem length_expandAll_le (h : r.AddsAtMost context most) (nodes : List Node) :
    (expandAll r context nodes).length ≤ (flattenAll nodes).length + most * elementsAll nodes := by
  cases nodes with
  | nil => simp [expandAll]
  | cons node nodes =>
    have first := length_expand_node_le h node
    have rest := length_expandAll_le h nodes
    rw [expandAll, flattenAll, elementsAll, Nat.mul_add, List.length_append, List.length_append]
    omega

end

theorem length_expand_le (h : r.AddsAtMost context most) (input : Text) :
    (expand r context input).length ≤
      input.length + most * (tokenize input).countP Token.isTag := by
  have tree := length_expandAll_le h (parse input)
  have texts := length_flattenAll_parse_le input
  have tags := Nat.mul_le_mul_left most (elementsAll_parse_le input)
  rw [expand_eq_expandAll]
  omega

end
end Markup

/-! ### Spacing tags -/

namespace Shortcode

open Markup

theorem columns_le (x : Float) : columns x ≤ maxSpacing := by
  rw [columns]
  split
  · exact Nat.min_le_right _ _
  · exact Nat.zero_le _

theorem spacing_le (group : Group) (sides : Sides) (parameters : Parameters) (theme : Theme) :
    (spacing group sides parameters theme).1 ≤ maxSpacing ∧
      (spacing group sides parameters theme).2 ≤ maxSpacing := by
  have named (key : Text) (other : Float) (side : Text) :
      ((parameters.number? key).map columns).getD (scaled theme group other side) ≤
        maxSpacing := by
    cases parameters.number? key with
    | none => exact columns_le _
    | some x => exact columns_le x
  cases sides with
  | named => exact ⟨named _ _ _, named _ _ _⟩
  | split => exact ⟨columns_le _, columns_le _⟩
  | left => exact ⟨columns_le _, Nat.zero_le _⟩
  | right => exact ⟨Nat.zero_le _, columns_le _⟩

/-- Both sides named, nothing else is asked for a number. -/
theorem spacing_of_named (group : Group) {parameters : Parameters}
    (left : parameters.contains "l".toList) (right : parameters.contains "r".toList)
    (theme theme' : Theme) (unnamed : Option Text) :
    spacing group .named { parameters with unnamed } theme' =
      spacing group .named parameters theme := by
  obtain ⟨l, left⟩ := Option.isSome_iff_exists.1 left
  obtain ⟨r, right⟩ := Option.isSome_iff_exists.1 right
  have left' : Parameters.get? { parameters with unnamed } "l".toList = some l := left
  have right' : Parameters.get? { parameters with unnamed } "r".toList = some r := right
  simp only [spacing, Parameters.number?, left, right, left', right', Option.map_some,
    Option.getD_some]

theorem get?_spacing (group : Group) (sides : Sides) :
    builtin.get? (group.initial ++ sides.suffix) = some (spacingHandler group sides) := by
  cases group <;> cases sides <;> rfl

/-- An element of a spacing tag is its expanded children between spaces. -/
theorem expand_spacing (theme : Theme) (group : Group) (sides : Sides) (parameters : Parameters)
    (selfClosing : Bool) (opening : Text) (closing : Option Text) (children : List Node) :
    Node.expand builtin theme
        (.element (group.initial ++ sides.suffix) parameters selfClosing opening closing children) =
      Layout.pad (expandAll builtin theme children) (spacing group sides parameters theme).1
        (spacing group sides parameters theme).2 := by
  rw [expand_element]
  simp only [Registry.apply, get?_spacing, spacingHandler]

theorem addsAtMost_spacingOnly (theme : Theme) :
    spacingOnly.AddsAtMost theme (2 * maxSpacing) := by
  rintro ⟨name, parameters, content, selfClosing⟩
  by_cases spaces : name ∈ spacingNames
  · obtain ⟨group, sides, -, kept⟩ := exists_spacingHandler spaces
    obtain ⟨left, right⟩ := spacing_le group sides parameters theme
    simp only [Registry.apply, kept, spacingHandler, Layout.length_pad]
    omega
  · rw [apply_spacingOnly_of_notMem theme parameters selfClosing spaces]
    exact Nat.le_add_right _ _

/-- What the built-in tags make of a plain text is no wider than the text and two full sides for
each of its tags. A spacing tag puts spaces around its content, never more than `maxSpacing` on a
side and none on a side that it does not serve; with both sides named, how many depends neither on
the theme nor on the unnamed value. -/
theorem visibleWidth_expand_le (theme : Theme) {text : Text} (plain : Escape.Plain text) :
    Escape.visibleWidth (Shortcodes.expand { theme := theme } text) ≤
        text.length + 2 * maxSpacing * (tokenize text).countP Token.isTag ∧
      ∀ (group : Group) (sides : Sides) (parameters : Parameters),
        let name := group.initial ++ sides.suffix
        ∃ left right, (left ≤ maxSpacing ∧ right ≤ maxSpacing) ∧
          (sides = .left → right = 0) ∧ (sides = .right → left = 0) ∧
          ∀ selfClosing opening closing children,
            Node.expand builtin theme
                (.element name parameters selfClosing opening closing children) =
              Text.spaces left ++ expandAll builtin theme children ++ Text.spaces right ∧
            (sides = .named → parameters.contains "l".toList → parameters.contains "r".toList →
              ∀ theme' unnamed, Node.expand builtin theme'
                  (.element name { parameters with unnamed } selfClosing opening closing
                    children) =
                Text.spaces left ++ expandAll builtin theme' children ++ Text.spaces right) := by
  constructor
  · rw [Escape.visibleWidth, strip_expand theme plain]
    exact length_expand_le (addsAtMost_spacingOnly theme) text
  · intro group sides parameters name
    refine ⟨(spacing group sides parameters theme).1, (spacing group sides parameters theme).2,
      spacing_le group sides parameters theme, ?_, ?_,
      fun selfClosing opening closing children => ⟨?_, ?_⟩⟩
    · rintro rfl
      rfl
    · rintro rfl
      rfl
    · exact expand_spacing theme group sides parameters selfClosing opening closing children
    · rintro rfl left right theme' unnamed
      rw [← spacing_of_named group left right theme theme' unnamed]
      exact expand_spacing theme' group .named _ selfClosing opening closing children

/-- A value far beyond what is drawn, and a tag with both of its sides named. -/
theorem visibleWidth_expand_le_paragraph :
    Escape.visibleWidth (Shortcodes.expand { theme := Theme.builtin } "[p=1e9]x[/p]".toList) ≤
        40012 ∧
      ∃ left right, left ≤ 10000 ∧ right ≤ 10000 ∧ ∀ theme unnamed children,
        Node.expand builtin theme
            (.element "p".toList
              ⟨unnamed, [("l".toList, "2".toList), ("r".toList, "3".toList)]⟩ false
              "[p l=2 r=3]".toList (some "[/p]".toList) children) =
          Text.spaces left ++ expandAll builtin theme children ++ Text.spaces right := by
  obtain ⟨width, sides⟩ := visibleWidth_expand_le Theme.builtin
    (show Escape.Plain "[p=1e9]x[/p]".toList from ⟨by decide, by decide⟩)
  have tags : (tokenize "[p=1e9]x[/p]".toList).countP Token.isTag = 2 := by decide +kernel
  obtain ⟨left, right, ⟨leftMost, rightMost⟩, -, -, spaced⟩ := sides .padding .named
    ⟨none, [("l".toList, "2".toList), ("r".toList, "3".toList)]⟩
  rw [tags] at width
  exact ⟨width, left, right, leftMost, rightMost, fun theme unnamed children =>
    (spaced false _ _ children).2 rfl (by decide) (by decide) theme unnamed⟩

end Shortcode
end StyledText

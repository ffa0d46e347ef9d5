import StyledText.Proofs.Markup.Flattening
import StyledText.Proofs.Markup.Parameters
import StyledText.Proofs.Markup.WellNested

/-!
# Expansions side by side

Texts and parameters of a tree are made of characters of the input. A relation that holds of such
texts, is kept when texts are joined and by what the handlers of two registries do, holds of what
the two registries make of the whole input.
-/
namespace StyledText.Markup

/-! ### Characters of a tree -/

theorem Parameters.Within.mono {s t : Text} {p : Parameters} (h : p.Within s) (st : s ⊆ t) :
    p.Within t where
  unnamed value mem := List.Subset.trans (h.unnamed value mem) st
  named entry mem :=
    ⟨List.Subset.trans (h.named entry mem).1 st, List.Subset.trans (h.named entry mem).2 st⟩

theorem selfClosingBody?_subset {body inner : Text} (h : selfClosingBody? body = some inner) :
    inner ⊆ body := by
  obtain ⟨reversed, found, rfl⟩ := Option.map_eq_some_iff.1 h
  have trimmed : (Text.trimEnd body).reverse ⊆ body := by
    rw [Text.trimEnd, Text.dropEndWhile, List.reverse_reverse]
    intro c mem
    exact List.mem_reverse.1 ((List.dropWhile_sublist _).subset mem)
  generalize (Text.trimEnd body).reverse = text at found trimmed
  cases text with
  | nil => exact nomatch found
  | cons c cs =>
    simp only [List.reverse_singleton, Text.stripStart?, Option.ite_none_right_eq_some,
      Option.some.injEq] at found
    obtain ⟨-, rfl⟩ := found
    intro d mem
    exact trimmed (List.mem_cons_of_mem c (List.mem_reverse.1 mem))

theorem splitName_subset {body name tail : Text} (h : splitName body = some (name, tail)) :
    tail ⊆ body := by
  simp only [splitName, Option.ite_none_right_eq_some, Option.some.injEq, Prod.mk.injEq] at h
  rw [← h.2.2]
  exact (List.dropWhile_sublist _).subset

theorem tail_subset_of_ofBody? {body : Text} {tag : Tag} (h : Tag.ofBody? body = some tag) :
    tag.tail ⊆ body := by
  rw [Tag.ofBody?.eq_def] at h
  simp only at h
  split at h
  · simp only [Option.ite_none_right_eq_some, Option.some.injEq] at h
    rw [← h.2]
    exact List.nil_subset _
  · split at h
    · next inner slash =>
      obtain ⟨parts, found, rfl⟩ := Option.map_eq_some_iff.1 h
      exact List.Subset.trans (splitName_subset found) (selfClosingBody?_subset slash)
    · obtain ⟨parts, found, rfl⟩ := Option.map_eq_some_iff.1 h
      exact splitName_subset found

theorem source_subset_of_mem {input : Text} {token : Token} (h : token ∈ tokenize input) :
    token.source ⊆ input := by
  intro c mem
  rw [← flatMap_source_tokenize input]
  exact List.mem_flatMap.2 ⟨token, h, mem⟩

theorem tail_subset_of_mem {input : Text} {tag : Tag} (h : .tag tag ∈ tokenize input) :
    tag.tail ⊆ input := by
  obtain ⟨cs, rest, read⟩ := exists_readToken_of_mem h
  obtain ⟨body, -, -, -, shape⟩ := readToken_tag read
  have markup : body ⊆ (Token.tag tag).source := by
    intro c mem
    simp [Token.source, Tag.ofBody?_markup shape, mem]
  have inside := List.Subset.trans markup (source_subset_of_mem h)
  exact List.Subset.trans (tail_subset_of_ofBody? shape) inside

theorem text_subset_source (token : Token) : token.text ⊆ token.source := by
  cases token <;> simp [Token.text, Token.source]

theorem flattenAll_parse_subset (input : Text) : flattenAll (parse input) ⊆ input := by
  rw [parse, treeOf_eq_nesting, Nesting.flattenAll_treeOf]
  intro c mem
  obtain ⟨token, occurs, inside⟩ := List.mem_flatMap.1 mem
  exact source_subset_of_mem occurs (text_subset_source token inside)

/-- Every tag of the node takes its parameters from characters of the input. -/
abbrev Node.From (input : Text) (node : Node) : Prop := node.Spelled fun tag => tag.tail ⊆ input

theorem from_of_mem_parse {input : Text} : ∀ node ∈ parse input, node.From input := by
  rw [parse, treeOf_eq_nesting]
  exact Nesting.spelled_of_mem_treeOf fun tag mem => tail_subset_of_mem mem

theorem Node.From.element {input name opening : Text} {parameters : Parameters}
    {selfClosing : Bool} {closing : Option Text} {children : List Node}
    (h : (Node.element name parameters selfClosing opening closing children).From input) :
    parameters.Within input ∧ ∀ child ∈ children, child.From input := by
  cases h with
  | selfClosing tail => exact ⟨(Parameters.within_parse _).mono tail, by simp⟩
  | pair tail _ _ _ _ inside => exact ⟨(Parameters.within_parse _).mono tail, inside⟩

/-! ### Two registries -/

section
variable {C : Type}

/-- A relation between texts made from an input that two registries keep, each in its context. -/
structure Keeps (input : Text) (r₁ r₂ : Registry C) (context₁ context₂ : C)
    (R : Text → Text → Prop) : Prop where
  text : ∀ t, t ⊆ input → R t t
  append : ∀ s₁ s₂ t₁ t₂, R s₁ s₂ → R t₁ t₂ → R (s₁ ++ t₁) (s₂ ++ t₂)
  apply : ∀ name parameters selfClosing content₁ content₂, parameters.Within input →
    R content₁ content₂ →
      R (r₁.apply context₁ ⟨name, parameters, content₁, selfClosing⟩)
        (r₂.apply context₂ ⟨name, parameters, content₂, selfClosing⟩)

variable {input : Text} {r₁ r₂ : Registry C} {context₁ context₂ : C} {R : Text → Text → Prop}

theorem Keeps.expandAll (h : Keeps input r₁ r₂ context₁ context₂ R) : (nodes : List Node) →
    (∀ node ∈ nodes, node.From input) → flattenAll nodes ⊆ input →
    R (expandAll r₁ context₁ nodes) (expandAll r₂ context₂ nodes)
  | [], _, _ => by
    simpa [Markup.expandAll] using h.text [] (List.nil_subset input)
  | .text content :: nodes, occurs, inside => by
    rw [flattenAll, List.append_subset, Node.flatten] at inside
    have rest := h.expandAll nodes (fun node mem => occurs node (List.mem_cons_of_mem _ mem))
      inside.2
    simpa [Markup.expandAll, Node.expand] using h.append _ _ _ _ (h.text content inside.1) rest
  | .element name parameters selfClosing opening closing children :: nodes, occurs, inside => by
    rw [flattenAll, List.append_subset, Node.flatten, List.append_subset,
      List.append_subset] at inside
    have element := (occurs _ List.mem_cons_self).element
    have inner := h.expandAll children element.2 inside.1.1.2
    have rest := h.expandAll nodes (fun node mem => occurs node (List.mem_cons_of_mem _ mem))
      inside.2
    have applied := h.apply name parameters selfClosing _ _ element.1 inner
    rw [Markup.expandAll, Markup.expandAll, expand_element, expand_element]
    exact h.append _ _ _ _ applied rest

theorem Keeps.expand (h : Keeps input r₁ r₂ context₁ context₂ R) :
    R (Markup.expand r₁ context₁ input) (Markup.expand r₂ context₂ input) := by
  rw [expand_eq_expandAll, expand_eq_expandAll]
  exact h.expandAll (parse input) from_of_mem_parse (flattenAll_parse_subset input)

end
end StyledText.Markup

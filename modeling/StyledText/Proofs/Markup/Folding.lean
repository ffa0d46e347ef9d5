import StyledText.Proofs.Markup.WellNested

/-!
# Expansion as a fold

A fold makes one result of every node of a tree: of a text by itself, of an element by its name,
its parameters and the results of its children. Main statement: expansion is the fold that lets
every handler work on the joined results of the children, on every input. The input that is
returned without a look at its tree is no exception.
-/
namespace StyledText.Markup

/-! ### Folds of trees -/

section
variable {α : Type} (text : Text → α) (element : Text → Parameters → Bool → List α → α)

mutual

/-- The result of a node, from the results of its children. How a tag was written has no part in
it. -/
def Node.fold : Node → α
  | .text content => text content
  | .element name parameters selfClosing _ _ children =>
    element name parameters selfClosing (foldAll children)

def foldAll : List Node → List α
  | [] => []
  | node :: nodes => node.fold :: foldAll nodes

end

theorem foldAll_eq_map (nodes : List Node) :
    foldAll text element nodes = nodes.map (Node.fold text element) := by
  induction nodes with
  | nil => simp [foldAll]
  | cons node nodes ih => simp [foldAll, ih]

end

section
variable {C : Type} (r : Registry C) (context : C)

/-- The value of an element: what its handler makes of the joined values of its children, or these
values alone when there is no handler. -/
def Registry.value (name : Text) (parameters : Parameters) (selfClosing : Bool)
    (contents : List Text) : Text :=
  r.apply context ⟨name, parameters, contents.flatten, selfClosing⟩

/-- The value of a node: a text stands for itself. -/
def Node.value : Node → Text := Node.fold id (r.value context)

theorem expandAll_eq_flatten_foldAll : (nodes : List Node) →
    expandAll r context nodes = (foldAll id (r.value context) nodes).flatten
  | [] => by simp [expandAll, foldAll]
  | .text content :: nodes => by
    have rest := expandAll_eq_flatten_foldAll nodes
    simp [expandAll, foldAll, Node.expand, Node.fold, rest]
  | .element name parameters selfClosing opening closing children :: nodes => by
    have inner := expandAll_eq_flatten_foldAll children
    have rest := expandAll_eq_flatten_foldAll nodes
    rw [expandAll, expand_element, foldAll, Node.fold, List.flatten_cons, Registry.value, inner,
      rest]

theorem expandAll_eq_flatMap_value (nodes : List Node) :
    expandAll r context nodes = nodes.flatMap (Node.value r context) := by
  rw [expandAll_eq_flatten_foldAll, foldAll_eq_map, List.flatMap_def]
  rfl

end

/-! ### Input without markup -/

theorem hasDoubledClosing_iff {input : Text} :
    hasDoubledClosing input = true ↔ [']', ']'] <:+: input := by
  fun_induction hasDoubledClosing input with
  | case1 rest => simpa using (List.prefix_append [']', ']'] rest).isInfix
  | case2 c rest notDoubled ih =>
    rw [ih, List.infix_cons_iff]
    refine ⟨.inr, fun found => found.resolve_left ?_⟩
    rintro ⟨more, same⟩
    rw [List.cons_append, List.cons_append, List.cons.injEq] at same
    exact notDoubled more same.1.symm same.2.symm
  | case3 => simp

theorem mayHoldMarkup_eq_false_iff {input : Text} :
    mayHoldMarkup input = false ↔ '[' ∉ input ∧ ¬ [']', ']'] <:+: input := by
  rw [mayHoldMarkup, Bool.or_eq_false_iff, ← hasDoubledClosing_iff, Bool.not_eq_true]
  simp

/-- Expansion joins the values of the nodes of the tree, whatever the handlers are. An input without
an opening bracket and without a doubled closing one is returned as it is, and cutting it into
tokens, pairing them and joining the values gives the same. -/
theorem expand_eq_flatMap_value {C : Type} (r : Registry C) (context : C) (input : Text) :
    expand r context input = (parse input).flatMap (Node.value r context) ∧
      ('[' ∉ input → ¬ [']', ']'] <:+: input →
        expand r context input = input ∧
          (treeOf (tokenize input)).flatMap (Node.value r context) = input) := by
  have folded : expand r context input = (parse input).flatMap (Node.value r context) := by
    rw [expand_eq_expandAll, expandAll_eq_flatMap_value]
  refine ⟨folded, fun noOpening noDoubled => ?_⟩
  have plain := mayHoldMarkup_eq_false_iff.2 ⟨noOpening, noDoubled⟩
  have unchanged : expand r context input = input := by simp [expand, plain]
  exact ⟨unchanged, folded.symm.trans unchanged⟩

/-- Single closing brackets and quotes that stay open, around the name of a tag with a handler. -/
theorem expand_eq_flatMap_value_quotes :
    '[' ∉ "b] ='x] \"]".toList ∧ ¬ [']', ']'] <:+: "b] ='x] \"]".toList ∧
      expand (.ofList [("b".toList, fun _ () => "!".toList)]) () "b] ='x] \"]".toList =
        "b] ='x] \"]".toList ∧
      (treeOf (tokenize "b] ='x] \"]".toList)).flatMap
          (Node.value (.ofList [("b".toList, fun _ () => "!".toList)]) ()) =
        "b] ='x] \"]".toList := by
  have noOpening : '[' ∉ "b] ='x] \"]".toList := by decide
  have noDoubled : ¬ [']', ']'] <:+: "b] ='x] \"]".toList := by
    rw [← hasDoubledClosing_iff]
    decide
  exact ⟨noOpening, noDoubled, (expand_eq_flatMap_value _ () _).2 noOpening noDoubled⟩

end StyledText.Markup

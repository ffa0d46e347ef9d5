import StyledText.Proofs.Markup.Document
import StyledText.Proofs.Markup.Stripping

/-!
# Stripping documents

The leaves of a document are its texts in document order. Stripping the markup of a document
leaves the markup of its leaves: joined, the texts around a tag never make up another tag.
-/
namespace StyledText.Markup

mutual

/-- The texts of a node in document order. -/
def Node.leaves : Node → Text
  | .text content => content
  | .element _ _ _ _ _ children => leavesAll children

def leavesAll : List Node → Text
  | [] => []
  | node :: nodes => node.leaves ++ leavesAll nodes

end

@[simp] theorem leavesAll_nil : leavesAll [] = [] := by simp [leavesAll]

@[simp] theorem leavesAll_cons (node : Node) (nodes : List Node) :
    leavesAll (node :: nodes) = node.leaves ++ leavesAll nodes := by
  simp [leavesAll]

@[simp] theorem escape_nil : escape [] = [] := rfl

@[simp] theorem escape_append (first second : Text) :
    escape (first ++ second) = escape first ++ escape second := by
  simp [escape]

/-! ### One pass -/

/-- What one pass leaves of a token. -/
def Token.kept (token : Token) : Text := if token.isTag then [] else token.source

theorem additive_kept : Additive Token.kept where
  nil := rfl
  cons _ _ := rfl

theorem removeTags_eq_flatMap (cs : Text) : removeTags cs = (tokenize cs).flatMap Token.kept := by
  rw [removeTags]
  induction tokenize cs with
  | nil => rfl
  | cons token tokens ih => cases isTag : token.isTag <;> simp [Token.kept, isTag, ih]

theorem removeTags_nil : removeTags [] = [] := by simp [removeTags]

theorem removeTags_escape (text rest : Text) :
    removeTags (escape text ++ rest) = escape text ++ removeTags rest := by
  have step := flatMap_tokenize_escape additive_kept text rest
  rw [removeTags_eq_flatMap, removeTags_eq_flatMap, step]
  simp [Token.kept, Token.isTag, Token.source, escape]

theorem removeTags_tag {tag : Tag} (h : tag.Whole) (rest : Text) :
    removeTags (tag.markup ++ rest) = removeTags rest := by
  rw [removeTags_eq_flatMap, removeTags_eq_flatMap]
  exact flatMap_tokenize_of_readToken Token.kept (h.readToken_append rest)

/-- In front of any text, one pass takes away all tags of well-nested markup and no more. -/
theorem WellNested.removeTags_append {markup : Text} {nodes : List Node}
    (h : WellNested markup nodes) (rest : Text) :
    removeTags (markup ++ rest) = escape (leavesAll nodes) ++ removeTags rest := by
  induction h generalizing rest with
  | nil => simp
  | text content behind ih =>
    rw [List.append_assoc, removeTags_escape, ih]
    simp [Node.leaves]
  | selfClosing whole kind behind ih =>
    rw [List.append_assoc, removeTags_tag whole, ih]
    simp [Node.ofTag, Node.leaves]
  | pair openingWhole openingKind closingWhole closingKind name inner behind innerIh behindIh =>
    simp only [List.append_assoc]
    rw [removeTags_tag openingWhole, innerIh, removeTags_tag closingWhole, behindIh]
    simp [Node.ofTag, Node.leaves]

/-! ### All passes -/

theorem any_isTag_letters (token : Token) : token.letters.any Token.isTag = token.isTag := by
  cases token with
  | literal text => simp [Token.letters, Token.isTag]
  | escaped bracket => simp [Token.letters, Token.isTag, Token.text]
  | tag tag => simp [Token.letters, Token.isTag]

theorem any_isTag_letterTokens (input : Text) :
    (letterTokens input).any Token.isTag = hasTag input := by
  simp [letterTokens, hasTag, List.any_flatMap, any_isTag_letters]

theorem hasTag_escape (text : Text) : hasTag (escape text) = false := by
  have letters := letterTokens_escape text []
  rw [List.append_nil] at letters
  rw [← any_isTag_letterTokens, letters]
  simp [letterTokens, Token.isTag]

/-- When one pass leaves no tag, stripping is that pass. -/
theorem strip_eq_removeTags {input : Text} (h : hasTag (removeTags input) = false) :
    strip input = removeTags input := by
  cases tagged : hasTag input with
  | true =>
    rw [strip.eq_def, contains_of_hasTag tagged, tagged]
    exact strip_of_not_hasTag h
  | false =>
    have all : (tokenize input).filter (!·.isTag) = tokenize input := by
      rw [List.filter_eq_self]
      intro token mem
      simpa using List.any_eq_false.1 tagged token mem
    rw [strip_of_not_hasTag tagged, removeTags, all, flatMap_source_tokenize]

section
variable {C : Type}

theorem expandAll_empty (context : C) : (nodes : List Node) →
    expandAll Registry.empty context nodes = leavesAll nodes
  | [] => by simp [expandAll]
  | .text content :: nodes => by
    have rest := expandAll_empty context nodes
    simp [expandAll, Node.expand, Node.leaves, rest]
  | .element _ _ _ _ _ children :: nodes => by
    have inner := expandAll_empty context children
    have rest := expandAll_empty context nodes
    have none (name : Text) : (Registry.empty : Registry C).get? name = none := rfl
    simp [expandAll, Node.expand, none, Node.leaves, inner, rest]

theorem expand_escape (r : Registry C) (context : C) (text : Text) :
    expand r context (escape text) = text := by
  have leaf : WellNested (escape text) [.text text] := by
    simpa using WellNested.text text .nil
  rw [leaf.expand_eq]
  simp [expandAll, Node.expand]

end

/-- Stripped, a document is the markup of its leaves. That expands to the leaves whatever the
handlers are, and so does the document itself when there are none. -/
theorem strip_document {markup : Text} {nodes : List Node} (h : WellNested markup nodes) :
    strip markup = escape (leavesAll nodes) ∧
      (∀ {C : Type} (r : Registry C) (context : C),
        expand r context (strip markup) = leavesAll nodes) ∧
      ∀ {C : Type} (context : C), expand Registry.empty context markup = leavesAll nodes := by
  have pass := h.removeTags_append []
  rw [List.append_nil, removeTags_nil, List.append_nil] at pass
  have stripped : strip markup = escape (leavesAll nodes) := by
    rw [strip_eq_removeTags (by rw [pass, hasTag_escape]), pass]
  refine ⟨stripped, fun r context => ?_, fun context => ?_⟩
  · rw [stripped, expand_escape]
  · rw [h.expand_eq, expandAll_empty]

/-- A bracket in a value, a tag between brackets of the text, and a bracket behind all tags. -/
theorem strip_document_brackets :
    ∃ nodes, WellNested "[b=\"]\"][[x[i /]]][/b]]]".toList nodes ∧
      strip "[b=\"]\"][[x[i /]]][/b]]]".toList = "[[x]]]]".toList ∧
      expand (Registry.empty : Registry Unit) () "[b=\"]\"][[x[i /]]][/b]]]".toList =
        "[x]]".toList := by
  have document := wellNested_printAll
    [.pair ⟨"b".toList, some ⟨"]".toList, '"', .inl rfl, by decide⟩, [], rfl, by decide⟩
      [.text "[x".toList, .selfClosing ⟨"i".toList, none, [], rfl, by decide⟩,
        .text "]".toList],
      .text "]".toList]
  have leaves := strip_document document
  exact ⟨_, document, leaves.1, leaves.2.2 ()⟩

end StyledText.Markup

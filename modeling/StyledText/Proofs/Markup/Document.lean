import StyledText.Proofs.Markup.Heads
import StyledText.Proofs.Markup.WellNested

/-!
# Documents

A document is a tree of texts and tags, printed with every bracket of a text doubled. Main
statement: printed and parsed it is the same tree, and in front of any text whatsoever it is
expanded from the leaves up, without a change to what follows.
-/
namespace StyledText.Markup

/-- A text or a tag, self-closing or around other pieces. A document is a list of pieces. -/
inductive Piece where
  | text (content : Text)
  | selfClosing (head : TagHead)
  | pair (head : TagHead) (children : List Piece)

mutual

def Piece.print : Piece → Text
  | .text content => escape content
  | .selfClosing head => head.selfClosingMarkup
  | .pair head children => head.openingMarkup ++ printAll children ++ head.closingMarkup

def printAll : List Piece → Text
  | [] => []
  | piece :: pieces => piece.print ++ printAll pieces

end

mutual

def Piece.node : Piece → Node
  | .text content => .text content
  | .selfClosing head =>
    .element head.name head.parameters true head.selfClosingMarkup none []
  | .pair head children =>
    .element head.name head.parameters false head.openingMarkup (some head.closingMarkup)
      (nodesAll children)

def nodesAll : List Piece → List Node
  | [] => []
  | piece :: pieces => piece.node :: nodesAll pieces

end

section
variable {C : Type} (r : Registry C) (context : C)

/-- A tag stands for what its handler makes of its content, or for the content alone. -/
def TagHead.eval (head : TagHead) (content : Text) (selfClosing : Bool) : Text :=
  match r.get? head.name with
  | some handler => handler ⟨head.name, head.parameters, content, selfClosing⟩ context
  | none => content

mutual

def Piece.eval : Piece → Text
  | .text content => content
  | .selfClosing head => head.eval r context [] true
  | .pair head children => head.eval r context (evalAll children) false

def evalAll : List Piece → Text
  | [] => []
  | piece :: pieces => piece.eval ++ evalAll pieces

end

theorem TagHead.apply_eq_eval (head : TagHead) (content : Text) (selfClosing : Bool) :
    r.apply context ⟨head.name, head.parameters, content, selfClosing⟩ =
      head.eval r context content selfClosing := rfl

theorem expandAll_nodesAll : (pieces : List Piece) →
    expandAll r context (nodesAll pieces) = evalAll r context pieces
  | [] => by simp [nodesAll, expandAll, evalAll]
  | .text content :: pieces => by
    have rest := expandAll_nodesAll pieces
    simp [nodesAll, Piece.node, expandAll, Node.expand, evalAll, Piece.eval, rest]
  | .selfClosing head :: pieces => by
    have rest := expandAll_nodesAll pieces
    rw [nodesAll, Piece.node, expandAll, expand_element, TagHead.apply_eq_eval, rest]
    simp [expandAll, evalAll, Piece.eval]
  | .pair head children :: pieces => by
    have inner := expandAll_nodesAll children
    have rest := expandAll_nodesAll pieces
    rw [nodesAll, Piece.node, expandAll, expand_element, TagHead.apply_eq_eval, inner, rest]
    simp [evalAll, Piece.eval]

end

/-! ### Printed documents are well nested -/

theorem selfClosing_node (head : TagHead) :
    (Piece.selfClosing head).node = .ofTag head.selfClosingTag [] none := by
  simp [Piece.node, Node.ofTag, TagHead.selfClosingTag, parse_tail_append_blank]

theorem pair_node (head : TagHead) (children : List Piece) :
    (Piece.pair head children).node =
      .ofTag head.openingTag (nodesAll children) (some head.closingTag.markup) := by
  simp [Piece.node, Node.ofTag, TagHead.openingTag, TagHead.closingTag, parse_tail]

theorem wellNested_printAll : (pieces : List Piece) →
    WellNested (printAll pieces) (nodesAll pieces)
  | [] => by
    rw [printAll, nodesAll]
    exact .nil
  | .text content :: pieces => by
    have behind := wellNested_printAll pieces
    rw [printAll, nodesAll, Piece.print, Piece.node]
    exact .text content behind
  | .selfClosing head :: pieces => by
    have behind := wellNested_printAll pieces
    rw [printAll, nodesAll, Piece.print, selfClosing_node]
    exact .selfClosing head.whole_selfClosingTag rfl behind
  | .pair head children :: pieces => by
    have inner := wellNested_printAll children
    have behind := wellNested_printAll pieces
    rw [printAll, nodesAll, Piece.print, pair_node, List.append_assoc, List.append_assoc]
    exact .pair head.whole_openingTag rfl head.whole_closingTag rfl rfl inner behind

theorem lettersAll_parse_printAll (pieces : List Piece) (rest : Text) :
    lettersAll (parse (printAll pieces ++ rest)) =
      lettersAll (nodesAll pieces) ++ lettersAll (parse rest) :=
  (wellNested_printAll pieces).lettersAll_parse rest

/-- Printed and parsed, a document is the same tree up to the way its text is cut. Printed in
front of any text, it is expanded from the leaves up and the text behind it as if it stood
alone. -/
theorem expand_printAll_append {C : Type} (r : Registry C) (context : C) (pieces : List Piece)
    (rest : Text) :
    joinAll (parse (printAll pieces)) = joinAll (nodesAll pieces) ∧
      expand r context (printAll pieces ++ rest) =
        evalAll r context pieces ++ expand r context rest := by
  constructor
  · have alone := lettersAll_parse_printAll pieces []
    rw [List.append_nil, parse_nil, lettersAll_nil, List.append_nil] at alone
    rw [← joinAll_lettersAll, alone, joinAll_lettersAll]
  · rw [expand_eq_expandAll, expand_eq_expandAll, ← expandAll_lettersAll,
      lettersAll_parse_printAll, expandAll_append, expandAll_lettersAll, expandAll_lettersAll,
      expandAll_nodesAll]

example :
    printAll [.pair ⟨"b".toList, some ⟨"]".toList, '"', .inl rfl, by decide⟩, [], rfl, by decide⟩
      [.text "[x]".toList]] = "[b=\"]\"][[x]][/b]".toList := by
  decide

end StyledText.Markup

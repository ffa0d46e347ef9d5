import StyledText.Proofs.Markup.Brackets
import StyledText.Proofs.Markup.Frames

/-!
# Flattening

A tree read in document order, markup included, is the text of its tokens in their order.
Every element carries what its own tags spell.
-/
namespace StyledText.Markup

mutual

/-- A node in document order: its opening markup, its children, its closing markup. -/
def Node.flatten : Node → Text
  | .text content => content
  | .element _ _ _ opening closing children =>
    opening ++ flattenAll children ++ closing.getD []

def flattenAll : List Node → Text
  | [] => []
  | node :: nodes => node.flatten ++ flattenAll nodes

end

@[simp] theorem flattenAll_append (first second : List Node) :
    flattenAll (first ++ second) = flattenAll first ++ flattenAll second := by
  induction first with
  | nil => simp [flattenAll]
  | cons node nodes ih => simp [flattenAll, ih]

/-- The elements of a node are spelled by tags that occur: one tag for a self-closing element,
which is empty, and two of one name for any other. -/
inductive Node.Spelled (occurs : Tag → Prop) : Node → Prop
  | text (content : Text) : Spelled occurs (.text content)
  | selfClosing {tag : Tag} (tagOccurs : occurs tag) (kind : tag.kind = .selfClosing) :
      Spelled occurs (.element tag.name (Parameters.parse tag.tail) true tag.markup none [])
  | pair {opening closing : Tag} {children : List Node}
      (openingOccurs : occurs opening) (openingKind : opening.kind = .opening)
      (closingOccurs : occurs closing) (closingKind : closing.kind = .closing)
      (name : closing.name = opening.name) (inside : ∀ child ∈ children, Spelled occurs child) :
      Spelled occurs (.element opening.name (Parameters.parse opening.tail) false
        opening.markup (some closing.markup) children)

namespace Nesting

theorem flattenAll_finish_step (s : Nesting) (token : Token) :
    flattenAll (s.step token).finish = flattenAll s.finish ++ token.text := by
  rcases s.finish_step token with added | ⟨tag, rfl, -, added⟩ |
    ⟨tag, opening, front, children, rfl, -, -, before, closed⟩
  · simp [added, flattenAll, Node.flatten]
  · simp [added, Node.ofTag, flattenAll, Node.flatten, Token.text]
  · simp [before, closed, Node.ofTag, flattenAll, Node.flatten, Token.text]

theorem flattenAll_treeOf (tokens : List Token) :
    flattenAll (treeOf tokens) = tokens.flatMap Token.text := by
  have run (s : Nesting) : flattenAll (tokens.foldl step s).finish =
      flattenAll s.finish ++ tokens.flatMap Token.text := by
    induction tokens generalizing s with
    | nil => simp
    | cons token tokens ih => simp [ih, flattenAll_finish_step]
  rw [treeOf, run, finish_nil]
  rfl

/-- Open tags occur, and so do the tags of all elements. -/
structure Sound (occurs : Tag → Prop) (s : Nesting) : Prop where
  openings : ∀ tag ∈ s.levels.map Level.tag, occurs tag ∧ tag.kind = .opening
  nodes : ∀ node ∈ s.finish, node.Spelled occurs

variable {occurs : Tag → Prop} {s : Nesting}

theorem map_tag_append (s : Nesting) (nodes : List Node) :
    (s.append nodes).levels.map Level.tag = s.levels.map Level.tag := by
  obtain ⟨root, levels⟩ := s
  cases levels <;> rfl

theorem Sound.append (h : s.Sound occurs) {nodes : List Node}
    (spelled : ∀ node ∈ nodes, node.Spelled occurs) : (s.append nodes).Sound occurs where
  openings := by
    rw [map_tag_append]
    exact h.openings
  nodes := by
    intro node mem
    rw [finish_append, ← finish_eq] at mem
    rcases List.mem_append.1 mem with mem | mem
    · exact h.nodes node mem
    · exact spelled node mem

theorem Sound.append_text (h : s.Sound occurs) (content : Text) :
    (s.append [.text content]).Sound occurs := by
  apply h.append
  intro node mem
  rw [List.mem_singleton.1 mem]
  exact .text content

theorem Sound.openTag (h : s.Sound occurs) {tag : Tag} (tagOccurs : occurs tag)
    (kind : tag.kind = .opening) : (s.openTag tag).Sound occurs where
  openings := by
    intro t mem
    rcases List.mem_cons.1 mem with rfl | mem
    · exact ⟨tagOccurs, kind⟩
    · exact h.openings t mem
  nodes := by
    intro node mem
    simp only [Nesting.openTag, finish_eq, asTexts_cons, Level.asText, ← List.append_assoc] at mem
    rw [← finish_eq] at mem
    rcases List.mem_append.1 mem with mem | mem
    · exact h.nodes node mem
    · rw [List.mem_singleton.1 mem]
      exact .text _

theorem Sound.closeTag (h : s.Sound occurs) {tag : Tag} (tagOccurs : occurs tag)
    (kind : tag.kind = .closing) : (s.closeTag tag).Sound occurs := by
  rcases s.exists_split tag.name with ⟨above, found, below, split, name, others⟩ | others
  · -- What the element takes in lies side by side in the finished tree, behind its opening markup.
    have all : s.finish =
        s.root ++ asTexts below ++ .text found.tag.markup :: (found.children ++ asTexts above) := by
      simp [finish_eq, split, asTexts_append, Level.asText]
    have outer : Sound occurs ⟨s.root, below⟩ := by
      refine ⟨fun t mem => h.openings t ?_, fun node mem => h.nodes node ?_⟩
      · rw [split, List.map_append, List.map_cons]
        exact List.mem_append_right _ (List.mem_cons_of_mem _ mem)
      · rw [all]
        exact List.mem_append_left _ (by simpa [finish_eq] using mem)
    have found_occurs := h.openings found.tag (by simp [split])
    have inside : ∀ child ∈ found.children ++ asTexts above, child.Spelled occurs := by
      intro child mem
      apply h.nodes
      rw [all]
      exact List.mem_append_right _ (List.mem_cons_of_mem _ mem)
    rw [closeTag_of_split split name others]
    apply outer.append
    intro node mem
    rw [List.mem_singleton.1 mem]
    have element := Node.Spelled.pair found_occurs.1 found_occurs.2 tagOccurs kind name.symm inside
    simpa [Node.ofTag, found_occurs.2] using element
  · rw [closeTag_of_forall others]
    exact h.append_text _

theorem Sound.step (h : s.Sound occurs) {token : Token}
    (tagOccurs : ∀ tag, token = .tag tag → occurs tag) : (s.step token).Sound occurs := by
  cases token with
  | literal text => exact h.append_text _
  | escaped bracket => exact h.append_text _
  | tag tag =>
    have occurs_tag := tagOccurs tag rfl
    cases kind : tag.kind with
    | opening => simpa [Nesting.step, kind] using h.openTag occurs_tag kind
    | selfClosing =>
      have spelled : (Node.ofTag tag [] none).Spelled occurs := by
        simpa [Node.ofTag, kind] using Node.Spelled.selfClosing occurs_tag kind
      have added : (s.append [Node.ofTag tag [] none]).Sound occurs :=
        h.append (by simpa using spelled)
      simpa [Nesting.step, kind] using added
    | closing => simpa [Nesting.step, kind] using h.closeTag occurs_tag kind

theorem spelled_of_mem_treeOf {tokens : List Token}
    (tagsOccur : ∀ tag, .tag tag ∈ tokens → occurs tag) :
    ∀ node ∈ treeOf tokens, node.Spelled occurs := by
  have run {s : Nesting} (h : s.Sound occurs) : (tokens.foldl Nesting.step s).Sound occurs := by
    induction tokens generalizing s with
    | nil => exact h
    | cons token tokens ih =>
      apply ih fun tag mem => tagsOccur tag (List.mem_cons_of_mem _ mem)
      exact h.step fun tag e => tagsOccur tag (by simp [e])
  exact (run ⟨by simp, by simp [finish_nil]⟩).nodes

end Nesting

/-- Parsing keeps all tokens in their order, and every element, at any depth, is spelled by tags
of the input that its markup alone reads as. -/
theorem flattenAll_parse (input : Text) :
    flattenAll (parse input) = (tokenize input).flatMap Token.text ∧
      ∀ node ∈ parse input, node.Spelled fun tag =>
        .tag tag ∈ tokenize input ∧ tokenize tag.markup = [.tag tag] := by
  rw [parse, treeOf_eq_nesting]
  exact ⟨Nesting.flattenAll_treeOf _,
    Nesting.spelled_of_mem_treeOf fun tag mem => ⟨mem, tokenize_markup mem⟩⟩

end StyledText.Markup

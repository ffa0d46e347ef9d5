import StyledText.Markup.Expansion
import StyledText.Proofs.Markup.Frames

/-!
# Text nodes letter by letter

Where a text is cut into nodes carries no meaning. Trees are compared with adjacent text nodes
joined and empty ones dropped, or with every text cut into single letters; the letters of a
list of nodes decide its joined form and its expansion, and reading commutes with cutting.
-/
namespace StyledText.Markup

/-- A node in front of joined nodes: two texts become one, and an empty text is dropped. -/
def joinText : Node → List Node → List Node
  | .text [], nodes => nodes
  | .text (c :: cs), .text content :: nodes => .text (c :: cs ++ content) :: nodes
  | node, nodes => node :: nodes

mutual

/-- Adjacent text nodes are joined and empty ones dropped, at every depth. -/
def joinAll : List Node → List Node
  | [] => []
  | node :: nodes => joinText node.joined (joinAll nodes)

def Node.joined : Node → Node
  | .text content => .text content
  | .element name parameters selfClosing opening closing children =>
    .element name parameters selfClosing opening closing (joinAll children)

end

def letterNodes (text : Text) : List Node := text.map fun c => .text [c]

mutual

/-- Every text is cut into letters, at every depth. -/
def lettersAll : List Node → List Node
  | [] => []
  | node :: nodes => node.letters ++ lettersAll nodes

def Node.letters : Node → List Node
  | .text content => letterNodes content
  | .element name parameters selfClosing opening closing children =>
    [.element name parameters selfClosing opening closing (lettersAll children)]

end

@[simp] theorem lettersAll_nil : lettersAll [] = [] := by simp [lettersAll]

@[simp] theorem lettersAll_cons (node : Node) (nodes : List Node) :
    lettersAll (node :: nodes) = node.letters ++ lettersAll nodes := by
  simp [lettersAll]

@[simp] theorem lettersAll_append (first second : List Node) :
    lettersAll (first ++ second) = lettersAll first ++ lettersAll second := by
  induction first with
  | nil => simp
  | cons node nodes ih => simp [ih]

@[simp] theorem lettersAll_letterNodes (text : Text) :
    lettersAll (letterNodes text) = letterNodes text := by
  induction text with
  | nil => simp [letterNodes]
  | cons c cs ih => simpa [letterNodes, Node.letters] using ih

@[simp] theorem lettersAll_lettersAll : (nodes : List Node) →
    lettersAll (lettersAll nodes) = lettersAll nodes
  | [] => by simp
  | .text content :: nodes => by
    have rest := lettersAll_lettersAll nodes
    simp [Node.letters, rest]
  | .element _ _ _ _ _ children :: nodes => by
    have inner := lettersAll_lettersAll children
    have rest := lettersAll_lettersAll nodes
    simp [Node.letters, inner, rest]

/-! ### Joining -/

theorem joinText_joinText (c : Char) (cs : Text) (nodes : List Node) :
    joinText (.text [c]) (joinText (.text cs) nodes) = joinText (.text (c :: cs)) nodes := by
  cases cs with
  | nil => simp [joinText]
  | cons d cs =>
    cases nodes with
    | nil => simp [joinText]
    | cons node nodes => cases node <;> simp [joinText]

theorem joinAll_letterNodes_append (text : Text) (nodes : List Node) :
    joinAll (letterNodes text ++ nodes) = joinText (.text text) (joinAll nodes) := by
  induction text with
  | nil => simp [letterNodes, joinText]
  | cons c cs ih =>
    have step : joinAll (letterNodes (c :: cs) ++ nodes) =
        joinText (.text [c]) (joinAll (letterNodes cs ++ nodes)) := by
      simp [letterNodes, joinAll, Node.joined]
    rw [step, ih, joinText_joinText]

theorem joinAll_lettersAll : (nodes : List Node) → joinAll (lettersAll nodes) = joinAll nodes
  | [] => by simp
  | .text content :: nodes => by
    have rest := joinAll_lettersAll nodes
    rw [lettersAll_cons, Node.letters, joinAll_letterNodes_append, rest]
    simp [joinAll, Node.joined]
  | .element _ _ _ _ _ children :: nodes => by
    have inner := joinAll_lettersAll children
    have rest := joinAll_lettersAll nodes
    simp [Node.letters, joinAll, Node.joined, inner, rest]

/-! ### Expansion -/

section
variable {C : Type} (r : Registry C) (context : C)

@[simp] theorem expandAll_append (first second : List Node) :
    expandAll r context (first ++ second) =
      expandAll r context first ++ expandAll r context second := by
  induction first with
  | nil => simp [expandAll]
  | cons node nodes ih => simp [expandAll, ih]

theorem expandAll_letterNodes (text : Text) : expandAll r context (letterNodes text) = text := by
  induction text with
  | nil => simp [letterNodes, expandAll]
  | cons c cs ih => simpa [letterNodes, expandAll, Node.expand] using ih

theorem expandAll_lettersAll : (nodes : List Node) →
    expandAll r context (lettersAll nodes) = expandAll r context nodes
  | [] => by simp
  | .text content :: nodes => by
    have rest := expandAll_lettersAll nodes
    simp [Node.letters, expandAll_letterNodes, expandAll, Node.expand, rest]
  | .element _ _ _ _ _ children :: nodes => by
    have inner := expandAll_lettersAll children
    have rest := expandAll_lettersAll nodes
    simp [Node.letters, expandAll, Node.expand, inner, rest]

end

/-! ### Reading -/

/-- A token as text, cut into letters. -/
def Token.letters : Token → List Token
  | .tag t => [.tag t]
  | token => token.text.map fun c => .literal [c]

/-- The tokens of an input, all text cut into letters. -/
def letterTokens (input : Text) : List Token := (tokenize input).flatMap Token.letters

def Level.letters (l : Level) : Level := ⟨l.tag, lettersAll l.children⟩

@[simp] theorem Level.letters_tag (l : Level) : l.letters.tag = l.tag := rfl

@[simp] theorem Level.letters_letters (l : Level) : l.letters.letters = l.letters := by
  simp [Level.letters]

theorem lettersAll_asTexts (levels : List Level) :
    lettersAll (asTexts (levels.map Level.letters)) = lettersAll (asTexts levels) := by
  induction levels with
  | nil => rfl
  | cons l ls ih => simp [Level.asText, Level.letters, ih]

namespace Nesting

def letters (s : Nesting) : Nesting := ⟨lettersAll s.root, s.levels.map Level.letters⟩

@[simp] theorem letters_letters (s : Nesting) : s.letters.letters = s.letters := by
  simp [letters]

theorem letters_append (s : Nesting) (nodes : List Node) :
    (s.append nodes).letters = s.letters.append (lettersAll nodes) := by
  obtain ⟨root, levels⟩ := s
  cases levels <;> simp [append, letters, Level.letters]

theorem lettersAll_finish (s : Nesting) : lettersAll s.letters.finish = lettersAll s.finish := by
  simp [finish_eq, letters, lettersAll_asTexts]

theorem letters_closeTag (s : Nesting) (tag : Tag) :
    (s.letters.closeTag tag).letters = (s.closeTag tag).letters := by
  rcases s.exists_split tag.name with ⟨above, found, below, split, name, others⟩ | others
  · have cut : s.letters.levels =
        above.map Level.letters ++ found.letters :: below.map Level.letters := by
      simp [letters, split]
    have outer : letters ⟨s.letters.root, below.map Level.letters⟩ = letters ⟨s.root, below⟩ :=
      letters_letters ⟨s.root, below⟩
    rw [closeTag_of_split split name others, closeTag_of_split cut name (by simpa using others),
      letters_append, letters_append, outer, Level.letters_tag]
    simp [Level.letters, Node.ofTag, Node.letters, lettersAll_asTexts]
  · have cut : ∀ l ∈ s.letters.levels, l.tag.name ≠ tag.name := by
      simpa [letters] using others
    rw [closeTag_of_forall others, closeTag_of_forall cut]
    simp [letters_append]

theorem letters_step (s : Nesting) (token : Token) :
    (s.letters.step token).letters = (s.step token).letters := by
  cases token with
  | literal text => simp [step, letters_append]
  | escaped bracket => simp [step, letters_append]
  | tag tag =>
    cases kind : tag.kind with
    | opening => simp [step, kind, openTag, letters]
    | selfClosing => simp [step, kind, letters_append]
    | closing => simpa [step, kind] using letters_closeTag s tag

theorem foldl_step_letters (s : Nesting) (text : Text) :
    (text.map fun c => .literal [c]).foldl step s = s.append (letterNodes text) := by
  induction text generalizing s with
  | nil => simp [letterNodes]
  | cons c cs ih => simp [ih, step, append_append, letterNodes, Token.text]

theorem letters_foldl_step (s : Nesting) (token : Token) :
    (token.letters.foldl step s).letters = (s.step token).letters := by
  cases token with
  | literal text =>
    simp [Token.letters, foldl_step_letters, step, letters_append, Node.letters]
  | escaped bracket =>
    simp [Token.letters, Token.text, step]
  | tag tag => simp [Token.letters]

theorem letters_foldl_flatMap (tokens : List Token) {s t : Nesting}
    (h : s.letters = t.letters) :
    ((tokens.flatMap Token.letters).foldl step s).letters = (tokens.foldl step t).letters := by
  induction tokens generalizing s t with
  | nil => exact h
  | cons token tokens ih =>
    rw [List.flatMap_cons, List.foldl_append, List.foldl_cons]
    apply ih
    rw [letters_foldl_step, ← letters_step, h, letters_step]

/-- The letters of a tree depend on the letters of the input's tokens only. -/
theorem lettersAll_treeOf (input : Text) :
    lettersAll (treeOf (letterTokens input)) = lettersAll (parse input) := by
  rw [parse, treeOf_eq_nesting, treeOf, treeOf, ← lettersAll_finish, letterTokens,
    letters_foldl_flatMap _ rfl, lettersAll_finish]

end Nesting
end StyledText.Markup

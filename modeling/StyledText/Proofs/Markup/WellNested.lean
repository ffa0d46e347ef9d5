import StyledText.Proofs.Markup.Brackets
import StyledText.Proofs.Markup.Letters

/-!
# Well-nested markup

Markup is well nested when it is made of texts with every bracket doubled and of tags that pair
up. How a tag is written is left open, as long as it is read as that tag. Main statement: in
front of any text well-nested markup is expanded by itself, and the text as if it stood alone.
-/
namespace StyledText.Markup

/-- The markup spells the nodes: whole tags that pair up, and texts between them. -/
inductive WellNested : Text → List Node → Prop
  | nil : WellNested [] []
  | text (content : Text) {markup : Text} {nodes : List Node} (behind : WellNested markup nodes) :
      WellNested (escape content ++ markup) (.text content :: nodes)
  | selfClosing {tag : Tag} (whole : tag.Whole) (kind : tag.kind = .selfClosing) {markup : Text}
      {nodes : List Node} (behind : WellNested markup nodes) :
      WellNested (tag.markup ++ markup) (.ofTag tag [] none :: nodes)
  | pair {opening closing : Tag} (openingWhole : opening.Whole)
      (openingKind : opening.kind = .opening) (closingWhole : closing.Whole)
      (closingKind : closing.kind = .closing) (name : closing.name = opening.name)
      {inside markup : Text} {children nodes : List Node} (inner : WellNested inside children)
      (behind : WellNested markup nodes) :
      WellNested (opening.markup ++ (inside ++ (closing.markup ++ markup)))
        (.ofTag opening children (some closing.markup) :: nodes)

/-! ### Tokens, letter by letter -/

theorem additive_letters : Additive Token.letters where
  nil := rfl
  cons _ _ := rfl

theorem letterTokens_splitPlain (cs : Text) :
    letterTokens cs = (splitPlain cs).1.map (fun c => .literal [c]) ++
      letterTokens (splitPlain cs).2 :=
  flatMap_tokenize_splitPlain additive_letters cs

theorem letterTokens_escape (text rest : Text) :
    letterTokens (escape text ++ rest) =
      text.map (fun c => .literal [c]) ++ letterTokens rest := by
  have step := flatMap_tokenize_escape additive_letters text rest
  simpa [letterTokens, Token.letters, Token.text, ← List.map_eq_flatMap] using step

theorem letterTokens_tag {tag : Tag} (h : tag.Whole) (rest : Text) :
    letterTokens (tag.markup ++ rest) = .tag tag :: letterTokens rest :=
  flatMap_tokenize_of_readToken Token.letters (h.readToken_append rest)

/-! ### Reading -/

theorem Nesting.step_closing (s : Nesting) {opening closing : Tag}
    (kind : closing.kind = .closing) (name : closing.name = opening.name)
    (children : List Node) :
    ((s.openTag opening).append children).step (.tag closing) =
      s.append [.ofTag opening children (some closing.markup)] := by
  have split : ((s.openTag opening).append children).levels =
      [] ++ ⟨opening, [] ++ children⟩ :: s.levels := rfl
  have same : (Level.mk opening ([] ++ children)).tag.name = closing.name := name.symm
  rw [step]
  simp only [kind]
  rw [closeTag_of_split split same (by simp), asTexts_nil, List.append_nil, List.nil_append]
  rfl

variable {markup : Text} {nodes : List Node}

namespace WellNested

/-- Reading well-nested markup adds its nodes, letter by letter. -/
theorem foldl_step (h : WellNested markup nodes) (s : Nesting) (rest : Text) :
    (letterTokens (markup ++ rest)).foldl Nesting.step s =
      (letterTokens rest).foldl Nesting.step (s.append (lettersAll nodes)) := by
  induction h generalizing s rest with
  | nil => simp
  | text content behind ih =>
    rw [List.append_assoc, letterTokens_escape, List.foldl_append, Nesting.foldl_step_letters, ih,
      Nesting.append_append]
    simp [Node.letters]
  | @selfClosing tag whole kind markup nodes behind ih =>
    have step : s.step (.tag tag) = s.append [.ofTag tag [] none] := by
      simp [Nesting.step, kind]
    rw [List.append_assoc, letterTokens_tag whole, List.foldl_cons, step, ih,
      Nesting.append_append]
    simp [Node.ofTag, Node.letters]
  | @pair opening closing openingWhole openingKind closingWhole closingKind name inside markup
      children nodes inner behind innerIh behindIh =>
    -- The children are read one level further in, and the closing tag takes that level away.
    have step : s.step (.tag opening) = s.openTag opening := by
      simp [Nesting.step, openingKind]
    simp only [List.append_assoc]
    rw [letterTokens_tag openingWhole, List.foldl_cons, step, innerIh,
      letterTokens_tag closingWhole, List.foldl_cons,
      Nesting.step_closing s closingKind name, behindIh, Nesting.append_append]
    simp [Node.ofTag, Node.letters]

/-- Up to letters, the tree of well-nested markup in front of any text is its nodes in front of
the tree of that text. -/
theorem lettersAll_parse (h : WellNested markup nodes) (rest : Text) :
    lettersAll (parse (markup ++ rest)) = lettersAll nodes ++ lettersAll (parse rest) := by
  have front : ({} : Nesting).append (lettersAll nodes) =
      ({} : Nesting).behind (lettersAll nodes) := by
    simp [Nesting.append, Nesting.behind]
  rw [← Nesting.lettersAll_treeOf, ← Nesting.lettersAll_treeOf, Nesting.treeOf, h.foldl_step,
    front, Nesting.foldl_step_behind, Nesting.finish_behind]
  simp [Nesting.treeOf]

end WellNested

/-! ### Expansion -/

section
variable {C : Type}

/-- What a registry makes of an occurrence: the handler's text, or the content alone. -/
def Registry.apply (r : Registry C) (context : C) (occurrence : Invocation) : Text :=
  match r.get? occurrence.name with
  | some handler => handler occurrence context
  | none => occurrence.content

theorem expand_element (r : Registry C) (context : C) (name : Text) (parameters : Parameters)
    (selfClosing : Bool) (opening : Text) (closing : Option Text) (children : List Node) :
    Node.expand r context (.element name parameters selfClosing opening closing children) =
      r.apply context ⟨name, parameters, expandAll r context children, selfClosing⟩ := by
  cases handler : r.get? name <;> simp [Node.expand, Registry.apply, handler]

end

theorem splitPlain_of_not_mayHoldMarkup {input : Text} (h : mayHoldMarkup input = false) :
    splitPlain input = (input, []) := by
  fun_induction splitPlain input with
  | case1 => rfl
  | case2 cs => simp [mayHoldMarkup] at h
  | case3 cs => simp [mayHoldMarkup, hasDoubledClosing] at h
  | case4 c cs opening doubled ih =>
    have rest : mayHoldMarkup cs = false := by
      rw [mayHoldMarkup, hasDoubledClosing.eq_2 c cs doubled] at h
      simp only [Bool.or_eq_false_iff] at h
      simp only [mayHoldMarkup, Bool.or_eq_false_iff]
      exact ⟨by simpa using fun mem => by simpa [mem] using h.1, h.2⟩
    rw [ih rest]

theorem parse_nil : parse [] = [] := by
  simp [parse, treeOf, Builder.finish, Builder.splice_nil]

/-- The shortcut for input without markup changes nothing. -/
theorem expand_eq_expandAll {C : Type} (r : Registry C) (context : C) (input : Text) :
    expand r context input = expandAll r context (parse input) := by
  cases plain : mayHoldMarkup input with
  | true => simp [expand, plain]
  | false =>
    have tokens : letterTokens input = input.map fun c => .literal [c] := by
      rw [letterTokens_splitPlain, splitPlain_of_not_mayHoldMarkup plain]
      simp [letterTokens]
    have tree : Nesting.treeOf (letterTokens input) = letterNodes input := by
      rw [Nesting.treeOf, tokens, Nesting.foldl_step_letters, Nesting.finish_append]
      simp
    rw [expand, if_neg (by simp [plain]), ← expandAll_lettersAll, ← Nesting.lettersAll_treeOf,
      tree, lettersAll_letterNodes, expandAll_letterNodes]

theorem WellNested.expand_append {C : Type} (h : WellNested markup nodes) (r : Registry C)
    (context : C) (rest : Text) :
    expand r context (markup ++ rest) = expandAll r context nodes ++ expand r context rest := by
  rw [expand_eq_expandAll, expand_eq_expandAll, ← expandAll_lettersAll, h.lettersAll_parse,
    expandAll_append, expandAll_lettersAll, expandAll_lettersAll]

theorem WellNested.expand_eq {C : Type} (h : WellNested markup nodes) (r : Registry C)
    (context : C) : expand r context markup = expandAll r context nodes := by
  simpa [expand_eq_expandAll, parse_nil, expandAll] using h.expand_append r context []

end StyledText.Markup

import StyledText.Markup.Span
import StyledText.Markup.Strip
import StyledText.Proofs.Markup.Grammar
import StyledText.Proofs.Text.Positions

/-!
# Tokens tile the input

Read one after another, the tokens of an input stand side by side from its first byte to its last,
each spells what stands in its place, and behind each of them the input is read as if it began
there.
-/
namespace StyledText.Markup

/-- A token stands for a piece of the input. A text is that piece, except that two brackets give
one; the markup of a tag is that piece and holds the tail right behind the name. -/
inductive Token.Spells : Token → Text → Prop
  | text {token : Token} (plain : token.isTag = false) (opening : token.text ≠ ['[', '['])
      (closing : token.text ≠ [']', ']']) : Spells token token.text
  | doubled {token : Token} {bracket : Char} (plain : token.isTag = false) (h : IsBracket bracket)
      (single : token.text = [bracket]) : Spells token [bracket, bracket]
  | tag {tag : Tag} {front back : Text} (name : NameShape tag.name)
      (inside : tag.markup = front ++ tag.name ++ tag.tail ++ back) : Spells (.tag tag) tag.markup

/-- The token that is read at a position, up to the position behind it. -/
def nextSpan? (input : Text) (position : ℕ) : Option Span :=
  (readToken (input.dropBytes position)).map fun (token, rest) =>
    ⟨token, position, Text.utf8Size input - Text.utf8Size rest⟩

def Span.shift (offset : ℕ) (s : Span) : Span := ⟨s.token, offset + s.start, offset + s.stop⟩

/-- From a position on, reading goes through these spans and ends with the input. -/
inductive Tiles (input : Text) : ℕ → List Span → Prop
  | done (ended : nextSpan? input (Text.utf8Size input) = none) :
      Tiles input (Text.utf8Size input) []
  | next {s : Span} {more : List Span} (read : nextSpan? input s.start = some s)
      (boundary : input.IsBoundary s.start) (advance : s.start < s.stop)
      (spelled : s.token.Spells (input.slice s.start s.stop))
      (restart : s :: more = (spans (input.dropBytes s.start)).map (Span.shift s.start))
      (rest : Tiles input s.stop more) : Tiles input s.start (s :: more)

theorem spansFrom_add (offset start : ℕ) (tokens : List Token) :
    spansFrom (offset + start) tokens = (spansFrom start tokens).map (Span.shift offset) := by
  induction tokens generalizing start with
  | nil => rfl
  | cons token tokens ih =>
    rw [spansFrom, spansFrom, List.map_cons, ← ih, Nat.add_assoc]
    rfl

/-! ### What a token spells -/

theorem TagBody.inside {body name tail : Text} {kind : TagKind} (h : TagBody body kind name tail) :
    NameShape name ∧ ∃ front back, body = front ++ name ++ tail ++ back := by
  cases h with
  | @closing _ blanks shape => exact ⟨shape, ['/'], blanks, by simp⟩
  | @selfClosing _ _ blanks shape => exact ⟨shape, [], '/' :: blanks, by simp⟩
  | opening shape => exact ⟨shape, [], [], by simp⟩

theorem spells_literal {text : Text} (opening : text ≠ ['[', '[']) (closing : text ≠ [']', ']']) :
    (Token.literal text).Spells text :=
  Token.Spells.text rfl opening closing

theorem spells_escaped {bracket : Char} (h : IsBracket bracket) :
    (Token.escaped bracket).Spells [bracket, bracket] :=
  .doubled rfl h rfl

/-- Behind a single bracket no literal text is a doubled one. -/
theorem spells_bracket {passed rest : Text} {token : Token}
    (given : BracketToken passed rest token) (single : ∀ more, passed ≠ '[' :: more) :
    token.Spells token.source := by
  have first (text : Text) : '[' :: text ≠ [']', ']'] := by simp
  cases given with
  | @tag kind name tail _ shape =>
    obtain ⟨isName, front, back, body⟩ := shape.inside
    have markup : '[' :: passed ++ [']'] =
        ('[' :: front) ++ name ++ tail ++ (back ++ [']']) := by simp [body]
    exact .tag isName markup
  | shapeless =>
    refine spells_literal ?_ (first _)
    intro twice
    have last := congrArg List.getLast? twice
    rw [List.getLast?_concat] at last
    simp at last
  | interrupted => exact spells_literal (by simpa using single []) (first _)
  | missing => exact spells_literal (by simpa using single []) (first _)

theorem spells_plain {c : Char} {cs : Text} (opening : c ≠ '[')
    (doubled : ∀ more, c = ']' → cs ≠ ']' :: more) :
    (Token.literal (c :: (splitPlain cs).1)).Spells (c :: (splitPlain cs).1) := by
  have cover := splitPlain_append cs
  refine spells_literal (by simp [opening]) ?_
  intro twice
  rw [List.cons.injEq] at twice
  rw [twice.2] at cover
  exact doubled _ twice.1 cover.symm

theorem spells_of_readToken {cs rest : Text} {token : Token}
    (h : readToken cs = some (token, rest)) : token.Spells token.source := by
  have read := h
  unfold readToken at h
  split at h
  · cases h
  · cases h
    exact spells_escaped (.inl rfl)
  · cases h
    exact spells_escaped (.inr rfl)
  · next cs single =>
    have given := bracketToken_readBracket cs
    have cover := Search.run_body_append_rest cs
    rw [Option.some.inj h] at given
    refine spells_bracket given fun more opened => ?_
    rw [opened] at cover
    exact single _ cover.symm
  · next c cs _ doubled opening =>
    have single : c ≠ '[' := by simpa using opening
    have undoubled : ∀ more, c = ']' → cs ≠ ']' :: more := by simpa using doubled
    rw [readToken_plain single undoubled] at read
    cases read
    exact spells_plain single undoubled

/-! ### Reading on -/

theorem nextSpan?_of_readToken {left rest : Text} {token : Token}
    (read : readToken left = some (token, rest)) (done : Text) :
    nextSpan? (done ++ left) (Text.utf8Size done) =
      some ⟨token, Text.utf8Size done, Text.utf8Size done + Text.utf8Size token.source⟩ := by
  have size : Text.utf8Size (done ++ left) =
      Text.utf8Size done + Text.utf8Size token.source + Text.utf8Size rest := by
    rw [← (readToken_source read).1, Text.utf8Size_append, Text.utf8Size_append, Nat.add_assoc]
  rw [nextSpan?, Text.dropBytes_append, read, Option.map_some, size]
  simp only [Nat.add_sub_cancel]

example : nextSpan? "é[b=1]".toList 2 =
    some ⟨.tag ⟨.opening, "b".toList, "=1".toList, "[b=1]".toList⟩, 2, 7⟩ := by
  decide +kernel

theorem spansFrom_tokenize (done left : Text) :
    spansFrom (Text.utf8Size done) (tokenize left) =
      (spans ((done ++ left).dropBytes (Text.utf8Size done))).map
        (Span.shift (Text.utf8Size done)) := by
  rw [Text.dropBytes_append]
  exact spansFrom_add (Text.utf8Size done) 0 (tokenize left)

theorem nextSpan?_end (input : Text) : nextSpan? input (Text.utf8Size input) = none := by
  have behind := Text.dropBytes_append input []
  rw [List.append_nil] at behind
  rw [nextSpan?, behind]
  rfl

theorem eq_nil_of_readToken {cs : Text} (h : readToken cs = none) : cs = [] := by
  cases cs with
  | nil => rfl
  | cons c cs =>
    unfold readToken at h
    split at h <;> simp_all

/-- Behind any part of an input that has been read, the tokens of the rest tile the rest. -/
theorem tiles_spansFrom (done left : Text) :
    Tiles (done ++ left) (Text.utf8Size done) (spansFrom (Text.utf8Size done) (tokenize left)) := by
  -- What has been read grows by each token, so it is not fixed in the induction on the rest.
  fun_induction tokenize left generalizing done with
  | case1 left ended =>
    obtain rfl := eq_nil_of_readToken ended
    rw [List.append_nil]
    exact .done (nextSpan?_end done)
  | case2 left token rest read ih =>
    obtain ⟨cover, nonempty⟩ := readToken_source read
    have behind := ih (done ++ token.source)
    rw [List.append_assoc, cover, Text.utf8Size_append] at behind
    have place : (done ++ left).slice (Text.utf8Size done)
        (Text.utf8Size done + Text.utf8Size token.source) = token.source := by
      rw [← cover, Text.slice_append]
    have spelled : token.Spells ((done ++ left).slice (Text.utf8Size done)
        (Text.utf8Size done + Text.utf8Size token.source)) := by
      rw [place]
      exact spells_of_readToken read
    have advance := Nat.lt_add_of_pos_right (n := Text.utf8Size done) (Text.utf8Size_pos nonempty)
    have boundary := Text.isBoundary_append done left
    have fresh := spansFrom_tokenize done left
    rw [tokenize_of_readToken read] at fresh
    have first := nextSpan?_of_readToken read done
    exact .next first boundary advance spelled fresh behind

/-- The spans of an input tile it from its first byte to its last. -/
theorem tiles_spans (input : Text) : Tiles input 0 (spans input) :=
  tiles_spansFrom [] input

end StyledText.Markup

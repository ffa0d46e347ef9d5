import StyledText.Proofs.Markup.Heads
import StyledText.Proofs.Text.Splitting

/-!
# The grammar of tags

A bracket is scanned to the first bracket outside quotes, or to the first of all when the input
ends inside a quote. It is a tag exactly when the scan stops at a closing bracket and what stands
in between is the body of a tag; otherwise it is literal text as far as the scan went.
-/
namespace StyledText.Markup

/-! ### Bodies of tags -/

def IsLetter (c : Char) : Prop := ('A' ≤ c ∧ c ≤ 'Z') ∨ ('a' ≤ c ∧ c ≤ 'z')

def IsDigit (c : Char) : Prop := '0' ≤ c ∧ c ≤ '9'

/-- A letter or an underscore, and letters, digits, underscores and hyphens behind it. -/
def NameShape (name : Text) : Prop :=
  ∃ c cs, name = c :: cs ∧ (IsLetter c ∨ c = '_') ∧
    ∀ d ∈ cs, IsLetter d ∨ IsDigit d ∨ d = '_' ∨ d = '-'

/-- Nothing, or a text that begins with `=` or a blank. -/
def TailShape (tail : Text) : Prop :=
  tail = [] ∨ ∃ c cs, tail = c :: cs ∧ (c = '=' ∨ Text.isBlank c)

/-- A slash ends the text, blanks behind it aside. -/
def EndsInSlash (text : Text) : Prop :=
  ∃ front blanks, text = front ++ '/' :: blanks ∧ ∀ c ∈ blanks, Text.isBlank c

/-- The body of a tag of some kind, with its name and its tail. -/
inductive TagBody : Text → TagKind → Text → Text → Prop
  | closing {name blanks : Text} (shape : NameShape name) (blank : ∀ c ∈ blanks, Text.isBlank c) :
      TagBody ('/' :: (name ++ blanks)) .closing name []
  | selfClosing {name tail blanks : Text} (shape : NameShape name) (tailShape : TailShape tail)
      (blank : ∀ c ∈ blanks, Text.isBlank c) :
      TagBody (name ++ tail ++ '/' :: blanks) .selfClosing name tail
  | opening {name tail : Text} (shape : NameShape name) (tailShape : TailShape tail)
      (noSlash : ¬ EndsInSlash (name ++ tail)) : TagBody (name ++ tail) .opening name tail

theorem isAlpha_iff {c : Char} : c.isAlpha = true ↔ IsLetter c := by
  unfold Char.isAlpha Char.isUpper Char.isLower
  simp [IsLetter, Char.le_def]

theorem isDigit_iff {c : Char} : c.isDigit = true ↔ IsDigit c := by
  simp [Char.isDigit, IsDigit, Char.le_def]

theorem isName_iff {name : Text} : isName name = true ↔ NameShape name := by
  have char {d : Char} : isNameChar d = true ↔ IsLetter d ∨ IsDigit d ∨ d = '_' ∨ d = '-' := by
    simp [isNameChar, Char.isAlphanum, isAlpha_iff, isDigit_iff, or_assoc]
  cases name with
  | nil => simp [isName, NameShape]
  | cons c cs => simp [isName, NameShape, isNameStart, isAlpha_iff, char]

theorem isTail_iff {tail : Text} : isTail tail = true ↔ TailShape tail := by
  cases tail <;> simp [isTail, TailShape]

theorem splitName_eq_some_iff {body name tail : Text} :
    splitName body = some (name, tail) ↔ body = name ++ tail ∧ NameShape name ∧ TailShape tail := by
  constructor
  · intro h
    simp only [splitName, Option.ite_none_right_eq_some, Option.some.injEq, Prod.mk.injEq,
      Bool.and_eq_true] at h
    obtain ⟨⟨nameOk, tailOk⟩, rfl, rfl⟩ := h
    exact ⟨List.takeWhile_append_dropWhile.symm, isName_iff.1 nameOk, isTail_iff.1 tailOk⟩
  · rintro ⟨rfl, shape, tailShape⟩
    exact splitName_append (isName_iff.2 shape) (isTail_iff.2 tailShape)

theorem selfClosingBody?_eq_some_iff {body inner : Text} :
    selfClosingBody? body = some inner ↔
      ∃ blanks, body = inner ++ '/' :: blanks ∧ ∀ c ∈ blanks, Text.isBlank c := by
  rw [selfClosingBody?, Text.stripEnd?_eq_some_iff]
  constructor
  · intro trimmed
    obtain ⟨blanks, split, blank⟩ := Text.exists_eq_trimEnd_append body
    exact ⟨blanks, by rw [split, trimmed]; simp, blank⟩
  · rintro ⟨blanks, rfl, blank⟩
    rw [List.append_cons, Text.trimEnd_append_of_blank blank,
      trimEnd_append_singleton inner (by decide)]

theorem selfClosingBody?_eq_none_iff {body : Text} :
    selfClosingBody? body = none ↔ ¬ EndsInSlash body := by
  rw [Option.eq_none_iff_forall_ne_some, EndsInSlash, not_exists]
  simp only [ne_eq, selfClosingBody?_eq_some_iff]

theorem ofBody?_of_ne_slash {body : Text} (h : ∀ rest, body ≠ '/' :: rest) :
    Tag.ofBody? body =
      match selfClosingBody? body with
      | some inner =>
        (splitName inner).map fun (name, tail) =>
          ⟨.selfClosing, name, tail, '[' :: body ++ [']']⟩
      | none =>
        (splitName body).map fun (name, tail) => ⟨.opening, name, tail, '[' :: body ++ [']']⟩ := by
  unfold Tag.ofBody?
  split
  · exact absurd rfl (h _)
  · rfl

theorem ne_slash_of_nameShape {name : Text} (h : NameShape name) (behind rest : Text) :
    name ++ behind ≠ '/' :: rest :=
  ne_of_isName_append (isName_iff.2 h) (by decide)

/-- A body is read as a tag exactly when it has the shape of one. -/
theorem ofBody?_eq_some_iff {body : Text} {tag : Tag} :
    Tag.ofBody? body = some tag ↔
      TagBody body tag.kind tag.name tag.tail ∧ tag.markup = '[' :: body ++ [']'] := by
  constructor
  · intro h
    refine ⟨?_, Tag.ofBody?_markup h⟩
    by_cases slash : ∃ rest, body = '/' :: rest
    · obtain ⟨rest, rfl⟩ := slash
      obtain ⟨blanks, split, blank⟩ := Text.exists_eq_trimEnd_append rest
      simp only [Tag.ofBody?, Option.ite_none_right_eq_some, Option.some.injEq] at h
      obtain ⟨name, rfl⟩ := h
      have closing := TagBody.closing (isName_iff.1 name) blank
      rwa [← split] at closing
    · rw [ofBody?_of_ne_slash (not_exists.1 slash)] at h
      split at h
      · next inner found =>
        obtain ⟨⟨name, tail⟩, parts, rfl⟩ := Option.map_eq_some_iff.1 h
        obtain ⟨blanks, rfl, blank⟩ := selfClosingBody?_eq_some_iff.1 found
        obtain ⟨rfl, shape, tailShape⟩ := splitName_eq_some_iff.1 parts
        exact .selfClosing shape tailShape blank
      · next none =>
        obtain ⟨⟨name, tail⟩, parts, rfl⟩ := Option.map_eq_some_iff.1 h
        obtain ⟨rfl, shape, tailShape⟩ := splitName_eq_some_iff.1 parts
        exact .opening shape tailShape (selfClosingBody?_eq_none_iff.1 none)
  · obtain ⟨kind, name, tail, markup⟩ := tag
    rintro ⟨shape, written⟩
    simp only at shape written
    subst written
    cases shape with
    | closing shape blank =>
      have isName := isName_iff.2 shape
      simp [Tag.ofBody?, Text.trimEnd_append_of_blank blank, trimEnd_of_isName isName, isName]
    | @selfClosing _ _ blanks shape tailShape blank =>
      have inner : selfClosingBody? (name ++ tail ++ '/' :: blanks) = some (name ++ tail) :=
        selfClosingBody?_eq_some_iff.2 ⟨blanks, rfl, blank⟩
      rw [ofBody?_of_ne_slash, inner]
      · simp only
        rw [splitName_eq_some_iff.2 ⟨rfl, shape, tailShape⟩]
        rfl
      · rw [List.append_assoc]
        exact ne_slash_of_nameShape shape _
    | opening shape tailShape noSlash =>
      rw [ofBody?_of_ne_slash, selfClosingBody?_eq_none_iff.2 noSlash]
      · simp only
        rw [splitName_eq_some_iff.2 ⟨rfl, shape, tailShape⟩]
        rfl
      · exact ne_slash_of_nameShape shape _

theorem ofBody?_of_tagBody {body name tail : Text} {kind : TagKind}
    (shape : TagBody body kind name tail) :
    Tag.ofBody? body = some ⟨kind, name, tail, '[' :: body ++ [']']⟩ :=
  ofBody?_eq_some_iff.2 ⟨shape, rfl⟩

/-! ### Where the scan of a bracket ends -/

def IsBracket (c : Char) : Prop := c = '[' ∨ c = ']'

/-- The quote that is open behind a character. It opens behind `=` or an ASCII blank only, and is
left at the mark that opened it. -/
def quoteBehind (quote : Option Char) (before c : Char) : Option Char :=
  match quote with
  | some q => if c = q then none else some q
  | none =>
    if (c = '"' ∨ c = '\'') ∧ (before = '=' ∨ Text.isAsciiBlank before) then some c else none

/-- The quote that is open behind a text. -/
def openQuote (quote : Option Char) (before : Char) : Text → Option Char
  | [] => quote
  | c :: cs => openQuote (quoteBehind quote before c) c cs

/-- What has been passed since the bracket leaves no quote open. -/
def Bare (passed : Text) : Prop := openQuote none '[' passed = none

/-- A text is passed up to the first bracket that counts, or all of it when none does. Whether a
bracket counts depends on the text in front of it. -/
structure FirstBracket (counts : Text → Prop) (cs passed rest : Text) : Prop where
  split : cs = passed ++ rest
  stop : ∀ c more, rest = c :: more → IsBracket c ∧ counts passed
  first : ∀ front c back, passed = front ++ c :: back → IsBracket c → ¬ counts front

/-- The scan of the text behind a bracket: what it passes and what is left. It stops at the first
bracket outside quotes; if the text ends inside a quote, at the first bracket of all. -/
inductive Scan (cs : Text) : Text → Text → Prop
  | outsideQuotes {passed rest : Text} (found : FirstBracket Bare cs passed rest)
      (bare : rest = [] → Bare cs) : Scan cs passed rest
  | anywhere {passed rest : Text} (none : FirstBracket Bare cs cs []) (inside : ¬ Bare cs)
      (found : FirstBracket (fun _ => True) cs passed rest) : Scan cs passed rest

namespace FirstBracket

variable {counts : Text → Prop} {cs passed rest : Text}

theorem nil : FirstBracket counts [] [] [] := ⟨rfl, by simp, by simp⟩

theorem here {c : Char} (bracket : IsBracket c) (h : counts []) (cs : Text) :
    FirstBracket counts (c :: cs) [] (c :: cs) where
  split := rfl
  stop := by
    intro d more e
    rw [List.cons.injEq] at e
    exact ⟨e.1 ▸ bracket, h⟩
  first := by simp

theorem cons {c : Char} (uncounted : IsBracket c → ¬ counts [])
    (h : FirstBracket (fun front => counts (c :: front)) cs passed rest) :
    FirstBracket counts (c :: cs) (c :: passed) rest where
  split := by rw [List.cons_append, ← h.split]
  stop := h.stop
  first := by
    intro front d back e bracket
    cases front with
    | nil =>
      rw [List.nil_append, List.cons.injEq] at e
      exact uncounted (e.1 ▸ bracket)
    | cons b front =>
      rw [List.cons_append, List.cons.injEq] at e
      obtain ⟨rfl, e⟩ := e
      exact h.first front d back e bracket

theorem not_longer {passed' rest' : Text} (h : FirstBracket counts cs passed rest)
    (h' : FirstBracket counts cs passed' rest') (c : Char) (more : Text) :
    passed' ≠ passed ++ c :: more := by
  intro longer
  have left : rest = c :: (more ++ rest') := by
    have splits := h.split.symm.trans h'.split
    simpa [longer] using splits
  obtain ⟨bracket, counted⟩ := h.stop c _ left
  exact h'.first passed c more longer bracket counted

theorem unique {passed' rest' : Text} (h : FirstBracket counts cs passed rest)
    (h' : FirstBracket counts cs passed' rest') : passed = passed' ∧ rest = rest' := by
  have splits := h.split.symm.trans h'.split
  rcases List.append_eq_append_iff.1 splits with ⟨more, longer, left⟩ | ⟨more, longer, left⟩
  · cases more with
    | nil => exact ⟨by simpa using longer.symm, left⟩
    | cons c more => exact absurd longer (h.not_longer h' c more)
  · cases more with
    | nil => exact ⟨by simpa using longer, left.symm⟩
    | cons c more => exact absurd longer (h'.not_longer h c more)

end FirstBracket

/-- A text is scanned in one way. -/
theorem Scan.unique {cs passed rest passed' rest' : Text} (h : Scan cs passed rest)
    (h' : Scan cs passed' rest') : passed = passed' ∧ rest = rest' := by
  cases h with
  | outsideQuotes found bare =>
    cases h' with
    | outsideQuotes found' => exact found.unique found'
    | anywhere none inside =>
      obtain ⟨-, left⟩ := found.unique none
      exact absurd (bare left) inside
  | anywhere none inside found =>
    cases h' with
    | outsideQuotes found' bare =>
      obtain ⟨-, left⟩ := found'.unique none
      exact absurd (bare left) inside
    | anywhere _ _ found' => exact found.unique found'

theorem Scan.isBracket {cs passed more : Text} {c : Char} (h : Scan cs passed (c :: more)) :
    IsBracket c := by
  cases h with
  | outsideQuotes found => exact (found.stop c more rfl).1
  | anywhere _ _ found => exact (found.stop c more rfl).1

namespace Search

/-- The ending of a search, by the quote left open and what is left of the text. -/
def endingAt : Option Char → Text → Ending
  | _, c :: _ => if c = ']' then .closed else .interrupted
  | none, [] => .missing
  | some _, [] => .unquoted

theorem endingAt_eq_closed_iff {quote : Option Char} {rest : Text} :
    endingAt quote rest = .closed ↔ ∃ more, rest = ']' :: more := by
  cases rest with
  | nil => cases quote <;> simp [endingAt]
  | cons c rest => simp [endingAt]

theorem endingAt_eq_unquoted_iff {quote : Option Char} {rest : Text} :
    endingAt quote rest = .unquoted ↔ rest = [] ∧ quote ≠ none := by
  cases rest with
  | nil => cases quote <;> simp [endingAt]
  | cons c rest =>
    simp only [endingAt, reduceCtorEq, false_and, iff_false]
    split <;> simp

theorem outsideQuotes_bracket {c : Char} (bracket : IsBracket c) (before : Char) (cs : Text) :
    outsideQuotes none before (c :: cs) = ⟨[], endingAt none (c :: cs), c :: cs⟩ := by
  rcases bracket with rfl | rfl <;> rfl

theorem outsideQuotes_cons {quote : Option Char} {c : Char} (h : IsBracket c → quote ≠ none)
    (before : Char) (cs : Text) :
    outsideQuotes quote before (c :: cs) =
      (outsideQuotes (quoteBehind quote before c) c cs).after c := by
  cases quote with
  | some q => rw [outsideQuotes, quoteBehind]
  | none =>
    have plain : ¬ IsBracket c := fun bracket => h bracket rfl
    rw [IsBracket, not_or] at plain
    rw [outsideQuotes, if_neg plain.2, if_neg plain.1, quoteBehind]
    by_cases opens : opensQuote before c
    · have marked := opens
      simp only [opensQuote, Bool.and_eq_true, Bool.or_eq_true, beq_iff_eq] at marked
      rw [if_pos opens, if_pos marked]
    · have marked := opens
      simp only [opensQuote, Bool.and_eq_true, Bool.or_eq_true, beq_iff_eq] at marked
      rw [if_neg opens, if_neg marked]

theorem firstBracket_outsideQuotes (quote : Option Char) (before : Char) (cs : Text) :
    FirstBracket (fun front => openQuote quote before front = none) cs
      (outsideQuotes quote before cs).body (outsideQuotes quote before cs).rest := by
  induction cs generalizing quote before with
  | nil => exact .nil
  | cons c cs ih =>
    by_cases stops : IsBracket c ∧ quote = none
    · obtain ⟨bracket, rfl⟩ := stops
      rw [outsideQuotes_bracket bracket]
      refine .here bracket ?_ cs
      rfl
    · rw [not_and] at stops
      rw [outsideQuotes_cons stops]
      exact .cons stops (ih (quoteBehind quote before c) c)

theorem ending_outsideQuotes (quote : Option Char) (before : Char) (cs : Text) :
    (outsideQuotes quote before cs).ending =
      endingAt (openQuote quote before cs) (outsideQuotes quote before cs).rest := by
  induction cs generalizing quote before with
  | nil => cases quote <;> rfl
  | cons c cs ih =>
    by_cases stops : IsBracket c ∧ quote = none
    · obtain ⟨bracket, rfl⟩ := stops
      rw [outsideQuotes_bracket bracket]
      simp [endingAt]
    · rw [not_and] at stops
      rw [outsideQuotes_cons stops]
      exact ih (quoteBehind quote before c) c

theorem firstBracket_anywhere (cs : Text) :
    FirstBracket (fun _ => True) cs (anywhere cs).body (anywhere cs).rest := by
  induction cs with
  | nil => exact .nil
  | cons c cs ih =>
    by_cases closing : c = ']'
    · rw [anywhere, if_pos closing]
      exact .here (.inr closing) trivial cs
    · by_cases opening : c = '['
      · rw [anywhere, if_neg closing, if_pos opening]
        exact .here (.inl opening) trivial cs
      · rw [anywhere, if_neg closing, if_neg opening]
        exact .cons (fun bracket => absurd bracket (by simp [IsBracket, opening, closing])) ih

theorem ending_anywhere (cs : Text) :
    (anywhere cs).ending = endingAt none (anywhere cs).rest := by
  induction cs with
  | nil => rfl
  | cons c cs ih =>
    rw [anywhere]
    split
    · next closing => simp [endingAt, closing]
    · split
      · next closing opening => simp [endingAt, closing]
      · exact ih

theorem scan_run (cs : Text) : Scan cs (run cs).body (run cs).rest := by
  have quoted := firstBracket_outsideQuotes none '[' cs
  have ending := ending_outsideQuotes none '[' cs
  rw [run]
  split
  · next unquoted =>
    -- Inside a quote at the end, the first search has passed the whole text.
    rw [ending, endingAt_eq_unquoted_iff] at unquoted
    obtain ⟨left, inside⟩ := unquoted
    have all : (outsideQuotes none '[' cs).body = cs := by simpa [left] using quoted.split.symm
    rw [all, left] at quoted
    exact .anywhere quoted inside (firstBracket_anywhere cs)
  · next quotesDone =>
    rw [ending, endingAt_eq_unquoted_iff, not_and, not_not] at quotesDone
    exact .outsideQuotes quoted quotesDone

theorem run_ending_eq_closed_iff (cs : Text) :
    (run cs).ending = .closed ↔ ∃ more, (run cs).rest = ']' :: more := by
  rw [run]
  split
  · rw [ending_anywhere, endingAt_eq_closed_iff]
  · rw [ending_outsideQuotes, endingAt_eq_closed_iff]

end Search

/-! ### The token of a bracket -/

/-- The token that the text behind a bracket gives, from what its scan passed and what it left. -/
inductive BracketToken (passed : Text) : Text → Token → Prop
  | tag {kind : TagKind} {name tail rest : Text} (shape : TagBody passed kind name tail) :
      BracketToken passed (']' :: rest) (.tag ⟨kind, name, tail, '[' :: passed ++ [']']⟩)
  | shapeless {rest : Text} (h : ∀ kind name tail, ¬ TagBody passed kind name tail) :
      BracketToken passed (']' :: rest) (.literal ('[' :: passed ++ [']']))
  | interrupted {rest : Text} : BracketToken passed ('[' :: rest) (.literal ('[' :: passed))
  | missing : BracketToken passed [] (.literal ('[' :: passed))

theorem BracketToken.unique {passed rest : Text} {token token' : Token}
    (h : BracketToken passed rest token) (h' : BracketToken passed rest token') :
    token = token' := by
  cases h with
  | tag shape =>
    cases h' with
    | tag shape' =>
      have read := ofBody?_of_tagBody shape
      rw [ofBody?_of_tagBody shape'] at read
      rw [Option.some.inj read]
    | shapeless none => exact absurd shape (none _ _ _)
  | shapeless none =>
    cases h' with
    | tag shape => exact absurd shape (none _ _ _)
    | shapeless => rfl
  | interrupted => cases h'; rfl
  | missing => cases h'; rfl

theorem bracketToken_readBracket (cs : Text) :
    BracketToken (Search.run cs).body (Search.run cs).rest (readBracket cs).1 := by
  have closed := Search.run_ending_eq_closed_iff cs
  have scan := Search.scan_run cs
  rw [readBracket]
  generalize Search.run cs = s at closed scan
  obtain ⟨body, ending, rest⟩ := s
  simp only at closed scan
  have cut (other : ending ≠ .closed) : BracketToken body rest (.literal ('[' :: body)) := by
    cases rest with
    | nil => exact .missing
    | cons c more =>
      rcases scan.isBracket with rfl | rfl
      · exact .interrupted
      · exact absurd (closed.2 ⟨more, rfl⟩) other
  cases ending with
  | closed =>
    obtain ⟨more, rfl⟩ := closed.1 rfl
    simp only
    cases read : Tag.ofBody? body with
    | none =>
      refine .shapeless fun kind name tail shape => ?_
      rw [ofBody?_of_tagBody shape] at read
      cases read
    | some tag =>
      obtain ⟨shape, written⟩ := ofBody?_eq_some_iff.1 read
      obtain ⟨kind, name, tail, markup⟩ := tag
      cases written
      exact .tag shape
  | interrupted => exact cut (by simp)
  | missing => exact cut (by simp)
  | unquoted => exact cut (by simp)

/-- At a bracket that is not doubled the next token is the one that the scan and the grammar of
tags give, and no other. -/
theorem head?_tokens_at_bracket {input cs : Text} {before after : List Token}
    (reached : tokenize input = before ++ after)
    (here : input = before.flatMap Token.source ++ '[' :: cs)
    (single : ∀ more, cs ≠ '[' :: more) :
    (∃ token, after.head? = some token) ∧
      ∀ token, after.head? = some token ↔
        ∃ passed rest, Scan cs passed rest ∧ BracketToken passed rest token := by
  have left : tokenize ('[' :: cs) = after := tokenize_of_reached reached here
  have read : tokenize ('[' :: cs) = (readBracket cs).1 :: tokenize (readBracket cs).2 :=
    tokenize_of_readToken (readToken_bracket single)
  have first : after.head? = some (readBracket cs).1 := by rw [← left, read, List.head?_cons]
  have scan := Search.scan_run cs
  have given := bracketToken_readBracket cs
  refine ⟨⟨_, first⟩, fun token => ⟨?_, ?_⟩⟩
  · intro next
    obtain rfl : (readBracket cs).1 = token := Option.some.inj (first.symm.trans next)
    exact ⟨_, _, scan, given⟩
  · rintro ⟨passed, rest, scan', given'⟩
    obtain ⟨rfl, rfl⟩ := scan.unique scan'
    rw [first, given.unique given']

theorem head?_tokens_at_bracket_quoted :
    tokenize "é[a='x]' /  ]z".toList =
        [.literal "é".toList] ++
          [.tag ⟨.selfClosing, "a".toList, "='x]' ".toList, "[a='x]' /  ]".toList⟩,
            .literal "z".toList] ∧
      "é[a='x]' /  ]z".toList =
        [Token.literal "é".toList].flatMap Token.source ++ '[' :: "a='x]' /  ]z".toList ∧
      (∀ more, "a='x]' /  ]z".toList ≠ '[' :: more) ∧
      ∃ passed rest, Scan "a='x]' /  ]z".toList passed rest ∧
        BracketToken passed rest
          (.tag ⟨.selfClosing, "a".toList, "='x]' ".toList, "[a='x]' /  ]".toList⟩) := by
  have reached :
      tokenize "é[a='x]' /  ]z".toList =
        [.literal "é".toList] ++
          [.tag ⟨.selfClosing, "a".toList, "='x]' ".toList, "[a='x]' /  ]".toList⟩,
            .literal "z".toList] := by
    decide +kernel
  have single (more : Text) : "a='x]' /  ]z".toList ≠ '[' :: more := by simp
  exact ⟨reached, rfl, single, ((head?_tokens_at_bracket reached rfl single).2 _).1 rfl⟩

end StyledText.Markup

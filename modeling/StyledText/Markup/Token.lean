import StyledText.Markup.Name

/-!
# Tokens of bracket markup

Markup is cut into literal text, doubled brackets that stand for one bracket, and tags.
A bracket runs to the first bracket outside quotes; a quote opens only after `=` or an
ASCII blank, so an apostrophe in a word is no quote. If the input ends inside a quote the
search is repeated with quotes ignored. What runs to a closing bracket without being a tag
is literal text, as is what an opening bracket or the end of the input cuts short.

`tokenize` covers its input: the sources of its tokens, joined, are the input.
-/
namespace StyledText.Markup

inductive TagKind where
  | opening
  | closing
  | selfClosing
  deriving DecidableEq, Repr

/-- A tag as written. `tail` is what follows the name, where parameters are found. -/
structure Tag where
  kind : TagKind
  name : Text
  tail : Text
  markup : Text
  deriving DecidableEq, Repr

inductive Token where
  | literal (text : Text)
  /-- A doubled bracket. -/
  | escaped (bracket : Char)
  | tag (tag : Tag)
  deriving DecidableEq, Repr

def Token.source : Token → Text
  | .literal t => t
  | .escaped bracket => [bracket, bracket]
  | .tag t => t.markup

/-- What a token contributes when it is read as text. -/
def Token.text : Token → Text
  | .literal t => t
  | .escaped bracket => [bracket]
  | .tag t => t.markup

/-- Why the search for the end of a bracket stopped. -/
inductive Ending where
  /-- At a closing bracket. -/
  | closed
  /-- At another opening bracket. -/
  | interrupted
  /-- At the end of the input. -/
  | missing
  /-- At the end of the input, inside a quote. -/
  | unquoted
  deriving DecidableEq, Repr

/-- What was passed over, why the search stopped, and what is left, from the character it
stopped at. -/
structure Search where
  body : Text
  ending : Ending
  rest : Text
  deriving DecidableEq, Repr

namespace Search

def after (c : Char) (s : Search) : Search := { s with body := c :: s.body }

/-- A quote opens after `=` or an ASCII blank only. -/
def opensQuote (before c : Char) : Bool :=
  (c == '"' || c == '\'') && (before == '=' || Text.isAsciiBlank before)

/-- Search for a bracket outside quotes; `quote` is the open one and `before` the character
just passed. -/
def outsideQuotes (quote : Option Char) (before : Char) : Text → Search
  | [] => ⟨[], if quote.isSome then .unquoted else .missing, []⟩
  | c :: cs =>
    match quote with
    | some q => (outsideQuotes (if c = q then none else some q) c cs).after c
    | none =>
      if c = ']' then ⟨[], .closed, c :: cs⟩
      else if c = '[' then ⟨[], .interrupted, c :: cs⟩
      else if opensQuote before c then (outsideQuotes (some c) c cs).after c
      else (outsideQuotes none c cs).after c

def anywhere : Text → Search
  | [] => ⟨[], .missing, []⟩
  | c :: cs =>
    if c = ']' then ⟨[], .closed, c :: cs⟩
    else if c = '[' then ⟨[], .interrupted, c :: cs⟩
    else (anywhere cs).after c

def run (cs : Text) : Search :=
  let s := outsideQuotes none '[' cs
  if s.ending = .unquoted then anywhere cs else s

end Search

/-- What may follow a tag name: nothing, or text that starts with `=` or a blank. -/
def isTail : Text → Bool
  | [] => true
  | c :: _ => c == '=' || Text.isBlank c

def splitName (body : Text) : Option (Text × Text) :=
  let name := body.takeWhile isNameChar
  let tail := body.dropWhile isNameChar
  if isName name && isTail tail then some (name, tail) else none

/-- The body without a final slash, blanks behind it ignored. -/
def selfClosingBody? (body : Text) : Option Text := Text.stripEnd? ['/'] (Text.trimEnd body)

def Tag.ofBody? (body : Text) : Option Tag :=
  let markup := '[' :: body ++ [']']
  match body with
  | '/' :: rest =>
    let name := Text.trimEnd rest
    if isName name then some ⟨.closing, name, [], markup⟩ else none
  | _ =>
    match selfClosingBody? body with
    | some inner => (splitName inner).map fun (name, tail) => ⟨.selfClosing, name, tail, markup⟩
    | none => (splitName body).map fun (name, tail) => ⟨.opening, name, tail, markup⟩

/-- The token of a bracket that is not doubled, and what follows it. `cs` is the input
behind the bracket. -/
def readBracket (cs : Text) : Token × Text :=
  let s := Search.run cs
  match s.ending, s.rest with
  | .closed, _ :: rest =>
    match Tag.ofBody? s.body with
    | some tag => (.tag tag, rest)
    | none => (.literal ('[' :: s.body ++ [']']), rest)
  | _, rest => (.literal ('[' :: s.body), rest)

/-- The text up to the next opening bracket or doubled closing bracket, and what is left. -/
def splitPlain : Text → Text × Text
  | [] => ([], [])
  | '[' :: cs => ([], '[' :: cs)
  | ']' :: ']' :: cs => ([], ']' :: ']' :: cs)
  | c :: cs => (c :: (splitPlain cs).1, (splitPlain cs).2)

/-- The first token of a nonempty input and what follows it. -/
def readToken : Text → Option (Token × Text)
  | [] => none
  | '[' :: '[' :: cs => some (.escaped '[', cs)
  | ']' :: ']' :: cs => some (.escaped ']', cs)
  | '[' :: cs => some (readBracket cs)
  | c :: cs => some (.literal (splitPlain (c :: cs)).1, (splitPlain (c :: cs)).2)

theorem Search.outsideQuotes_body_append_rest (quote : Option Char) (before : Char) (cs : Text) :
    (outsideQuotes quote before cs).body ++ (outsideQuotes quote before cs).rest = cs := by
  induction cs generalizing quote before with
  | nil => rfl
  | cons c cs ih =>
    cases quote with
    | some q => simp [outsideQuotes, after, ih]
    | none =>
      simp only [outsideQuotes]
      split
      · rfl
      · split
        · rfl
        · split <;> simp [after, ih]

theorem Search.anywhere_body_append_rest (cs : Text) :
    (anywhere cs).body ++ (anywhere cs).rest = cs := by
  induction cs with
  | nil => rfl
  | cons c cs ih =>
    simp only [anywhere]
    split
    · rfl
    · split
      · rfl
      · simp [after, ih]

theorem Search.run_body_append_rest (cs : Text) : (run cs).body ++ (run cs).rest = cs := by
  simp only [run]
  split
  · exact anywhere_body_append_rest cs
  · exact outsideQuotes_body_append_rest none '[' cs

theorem splitPlain_append (cs : Text) : (splitPlain cs).1 ++ (splitPlain cs).2 = cs := by
  fun_induction splitPlain cs <;> simp_all

/-- A search stops with `closed` exactly in front of a closing bracket. -/
theorem Search.outsideQuotes_closed {quote : Option Char} {before : Char} {cs : Text}
    (h : (outsideQuotes quote before cs).ending = .closed) :
    ∃ rest, (outsideQuotes quote before cs).rest = ']' :: rest := by
  induction cs generalizing quote before with
  | nil => cases quote <;> simp [outsideQuotes] at h
  | cons c cs ih =>
    cases quote with
    | some q => exact ih h
    | none =>
      simp only [outsideQuotes] at h ⊢
      split
      · simp_all
      · split
        · simp_all
        · split <;> simp_all [after]

theorem Search.anywhere_closed {cs : Text} (h : (anywhere cs).ending = .closed) :
    ∃ rest, (anywhere cs).rest = ']' :: rest := by
  induction cs with
  | nil => simp [anywhere] at h
  | cons c cs ih =>
    simp only [anywhere] at h ⊢
    split
    · simp_all
    · split
      · simp_all
      · simp_all [after]

theorem Search.run_closed {cs : Text} (h : (run cs).ending = .closed) :
    ∃ rest, (run cs).rest = ']' :: rest := by
  simp only [run] at h ⊢
  split
  · rename_i hq
    rw [if_pos hq] at h
    exact anywhere_closed h
  · rename_i hq
    rw [if_neg hq] at h
    exact outsideQuotes_closed h

theorem Tag.ofBody?_markup {body : Text} {tag : Tag} (h : Tag.ofBody? body = some tag) :
    tag.markup = '[' :: body ++ [']'] := by
  simp only [Tag.ofBody?] at h
  split at h
  · split at h
    · simp only [Option.some.injEq] at h
      subst h
      rfl
    · exact nomatch h
  · split at h <;>
    · obtain ⟨parts, _, rfl⟩ := Option.map_eq_some_iff.1 h
      rfl

theorem readBracket_source (cs : Text) :
    (readBracket cs).1.source ++ (readBracket cs).2 = '[' :: cs := by
  have cover := Search.run_body_append_rest cs
  have closed := @Search.run_closed cs
  simp only [readBracket]
  generalize Search.run cs = s at cover closed ⊢
  obtain ⟨body, ending, rest⟩ := s
  subst cover
  cases ending with
  | closed =>
    obtain ⟨more, rfl⟩ := closed rfl
    simp only
    split
    · rename_i tag htag
      simp [Token.source, Tag.ofBody?_markup htag]
    · simp [Token.source]
  | interrupted => simp [Token.source]
  | missing => simp [Token.source]
  | unquoted => simp [Token.source]

theorem readBracket_source_ne_nil (cs : Text) : (readBracket cs).1.source ≠ [] := by
  simp only [readBracket]
  split
  · split
    · rename_i tag htag
      simp [Token.source, Tag.ofBody?_markup htag]
    · simp [Token.source]
  · simp [Token.source]

theorem splitPlain_cons_ne_nil {c : Char} {cs : Text} (bracket : c ≠ '[')
    (doubled : ∀ more, c = ']' → cs ≠ ']' :: more) : (splitPlain (c :: cs)).1 ≠ [] := by
  rw [splitPlain.eq_4]
  · simp
  · exact bracket
  · exact doubled

/-- A token covers a nonempty prefix of the input, and what is left is the rest. -/
theorem readToken_source {cs rest : Text} {token : Token}
    (h : readToken cs = some (token, rest)) : token.source ++ rest = cs ∧ token.source ≠ [] := by
  unfold readToken at h
  split at h
  · exact nomatch h
  · cases h
    simp [Token.source]
  · cases h
    simp [Token.source]
  · rename_i cs' _
    have cover := readBracket_source cs'
    have full := readBracket_source_ne_nil cs'
    rw [Option.some.inj h] at cover full
    exact ⟨cover, full⟩
  · rename_i c cs' _ doubled bracket
    cases h
    exact ⟨splitPlain_append _, splitPlain_cons_ne_nil (by simpa using bracket)
      (by simpa using doubled)⟩

theorem readToken_length_lt {cs rest : Text} {token : Token}
    (h : readToken cs = some (token, rest)) : rest.length < cs.length := by
  have cover := congrArg List.length (readToken_source h).1
  have full := List.length_pos_iff.2 (readToken_source h).2
  simp only [List.length_append] at cover
  omega

def tokenize (cs : Text) : List Token :=
  match _h : readToken cs with
  | none => []
  | some (token, rest) => token :: tokenize rest
termination_by cs.length
decreasing_by exact readToken_length_lt ‹_›

theorem flatMap_source_tokenize (cs : Text) : (tokenize cs).flatMap Token.source = cs := by
  fun_induction tokenize cs with
  | case1 cs h =>
    cases cs with
    | nil => rfl
    | cons c cs =>
      simp only [readToken] at h
      split at h <;> simp_all
  | case2 cs token rest h ih =>
    simp only [List.flatMap_cons, ih]
    exact (readToken_source h).1

/-- A text in which every bracket is doubled. It reads as itself without any tag. -/
def escape (t : Text) : Text := t.flatMap fun c => if c = '[' ∨ c = ']' then [c, c] else [c]

end StyledText.Markup

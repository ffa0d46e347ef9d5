import StyledText.Text.Basic

/-!
# Escape sequences

An escape sequence begins with ESC and is one of three kinds: a control sequence
`ESC [ parameters intermediates final`, an operating system command `ESC ] … BEL` or
`ESC ] … ESC \`, or a two-character escape. `pieces` cuts a text into sequences and
characters; the characters are what a reader sees.
-/
namespace StyledText.Escape

def esc : Char := '\x1b'

def bel : Char := '\x07'

def isParameter (c : Char) : Bool := '0' ≤ c && c ≤ '?'

def isIntermediate (c : Char) : Bool := ' ' ≤ c && c ≤ '/'

def isFinal (c : Char) : Bool := '@' ≤ c && c ≤ '~'

/-- A character inside an operating system command. -/
def isCommandChar (c : Char) : Bool := c != bel && c != esc

/-- The second character of a two-character escape. -/
def isSecond (c : Char) : Bool := ('0' ≤ c && c ≤ 'Z') || ('\\' ≤ c && c ≤ '_')

/-- Behind `ESC [`: parameters, intermediates and a final character, and what is left. -/
def controlBody? (cs : Text) : Option (Text × Text) :=
  let parameters := cs.takeWhile isParameter
  let afterParameters := cs.dropWhile isParameter
  let intermediates := afterParameters.takeWhile isIntermediate
  match afterParameters.dropWhile isIntermediate with
  | c :: rest => if isFinal c then some (parameters ++ intermediates ++ [c], rest) else none
  | [] => none

/-- Behind `ESC ]`: a command and what ends it, and what is left. -/
def commandBody? (cs : Text) : Option (Text × Text) :=
  let command := cs.takeWhile isCommandChar
  match cs.dropWhile isCommandChar with
  | '\x07' :: rest => some (command ++ [bel], rest)
  | '\x1b' :: '\\' :: rest => some (command ++ [esc, '\\'], rest)
  | _ => none

/-- Behind ESC: the rest of the sequence and what is left. -/
def body? : Text → Option (Text × Text)
  | [] => none
  | c :: cs =>
    let short := if isSecond c then some ([c], cs) else none
    if c = '[' then (controlBody? cs).map fun (body, rest) => (c :: body, rest)
    else if c = ']' then
      match commandBody? cs with
      | some (body, rest) => some (c :: body, rest)
      | none => short
    else short

theorem controlBody?_append {cs body rest : Text} (h : controlBody? cs = some (body, rest)) :
    body ++ rest = cs := by
  simp only [controlBody?] at h
  split at h
  · rename_i c more hmore
    split at h
    · obtain ⟨rfl, rfl⟩ := Prod.mk.inj (Option.some.inj h)
      simp only [List.append_assoc, List.singleton_append]
      rw [← hmore, List.takeWhile_append_dropWhile, List.takeWhile_append_dropWhile]
    · exact nomatch h
  · exact nomatch h

theorem commandBody?_append {cs body rest : Text} (h : commandBody? cs = some (body, rest)) :
    body ++ rest = cs := by
  simp only [commandBody?] at h
  split at h
  · rename_i more hmore
    obtain ⟨rfl, rfl⟩ := Prod.mk.inj (Option.some.inj h)
    have := List.takeWhile_append_dropWhile (p := isCommandChar) (l := cs)
    rw [hmore] at this
    simpa [bel] using this
  · rename_i more hmore
    obtain ⟨rfl, rfl⟩ := Prod.mk.inj (Option.some.inj h)
    have := List.takeWhile_append_dropWhile (p := isCommandChar) (l := cs)
    rw [hmore] at this
    simpa [esc] using this
  · exact nomatch h

/-- A sequence and what is left are the input, and a sequence is never empty. -/
theorem body?_append {cs body rest : Text} (h : body? cs = some (body, rest)) :
    body ++ rest = cs ∧ body ≠ [] := by
  cases cs with
  | nil => exact nomatch h
  | cons c cs =>
    have short : ∀ {b r : Text}, (if isSecond c then some ([c], cs) else none) = some (b, r) →
        b ++ r = c :: cs ∧ b ≠ [] := by
      intro b r hs
      split at hs
      · obtain ⟨rfl, rfl⟩ := Prod.mk.inj (Option.some.inj hs)
        simp
      · exact nomatch hs
    simp only [body?] at h
    split at h
    · obtain ⟨⟨b, r⟩, hb, heq⟩ := Option.map_eq_some_iff.1 h
      obtain ⟨rfl, rfl⟩ := Prod.mk.inj heq
      simp [controlBody?_append hb]
    · split at h
      · split at h
        · rename_i b r hb
          obtain ⟨rfl, rfl⟩ := Prod.mk.inj (Option.some.inj h)
          simp [commandBody?_append hb]
        · exact short h
      · exact short h

/-- Part of a text: a character that is seen, or a whole escape sequence. -/
inductive Piece where
  | visible (c : Char)
  | sequence (markup : Text)
  deriving DecidableEq, Repr

/-- The input that a piece covers. -/
def Piece.source : Piece → Text
  | .visible c => [c]
  | .sequence s => s

def Piece.visible? : Piece → Option Char
  | .visible c => some c
  | .sequence _ => none

/-- The pieces of a text. An ESC that begins no sequence is a character. -/
def pieces : Text → List Piece
  | [] => []
  | c :: cs =>
    if c = esc then
      match _h : body? cs with
      | some (body, rest) => .sequence (esc :: body) :: pieces rest
      | none => .visible c :: pieces cs
    else .visible c :: pieces cs
termination_by t => t.length
decreasing_by
  · have := congrArg List.length (body?_append _h).1
    simp only [List.length_append, List.length_cons] at this ⊢
    omega
  · simp
  · simp

/-- The text without its escape sequences, found in one pass from the left. -/
def strip (t : Text) : Text := (pieces t).filterMap Piece.visible?

/-- The number of characters that are seen. -/
def visibleWidth (t : Text) : Nat := (strip t).length

end StyledText.Escape

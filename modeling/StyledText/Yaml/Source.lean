import StyledText.Text.Basic

/-!
# Characters with their place

A document is read as a list of characters that know their line, their column and how many
bytes stand before them. Carriage returns and next-line characters are line feeds by then;
the line and paragraph separators break lines as well and stay what they are.
-/
namespace StyledText.Yaml

/-- Why a document is refused. -/
inductive Fault where
  /-- A character that no document may hold. -/
  | character
  /-- Characters that form no token where they stand. -/
  | token
  /-- A key that its colon does not follow on the same line. -/
  | key
  /-- Tokens that form no document. -/
  | layout
  /-- An alias without its anchor. -/
  | anchor
  /-- A key written twice. -/
  | duplicate
  /-- A scalar that its tag or the reader does not allow. -/
  | scalar
  /-- Nesting or repetition beyond the limit. -/
  | limit
  deriving DecidableEq, Repr

/-- A character and where it stands. -/
structure Spot where
  char : Char
  line : Nat
  column : Nat
  /-- Bytes before the character. -/
  offset : Nat
  deriving DecidableEq, Repr

def isBreak (c : Char) : Bool := c == '\n' || c == '\u2028' || c == '\u2029'

def isBlank (c : Char) : Bool := c == ' ' || c == '\t'

/-- The byte order mark, which may begin any line between tokens and takes a column there. -/
def byteOrderMark : Char := '\ufeff'

def isWord (c : Char) : Bool := c.isAlphanum || c == '_' || c == '-'

/-- The characters that a document may hold. -/
def isAllowed (c : Char) : Bool :=
  let n := c.toNat
  n == 0x09 || n == 0x0A || n == 0x0D || (0x20 ≤ n && n ≤ 0x7E) || n == 0x85 ||
    (0xA0 ≤ n && n ≤ 0xD7FF) || (0xE000 ≤ n && n ≤ 0xFFFD) || 0x10000 ≤ n

/-- One line feed for each way to end a line. -/
def unifyBreaks : Text → Text
  | '\r' :: '\n' :: rest => '\n' :: unifyBreaks rest
  | '\r' :: rest => '\n' :: unifyBreaks rest
  | '\u0085' :: rest => '\n' :: unifyBreaks rest
  | c :: rest => c :: unifyBreaks rest
  | [] => []

/-- Give each character its place. -/
def locate (line column offset : Nat) : Text → List Spot
  | [] => []
  | c :: rest =>
    ⟨c, line, column, offset⟩ ::
      if isBreak c then locate (line + 1) 0 (offset + c.utf8Size) rest
      else locate line (column + 1) (offset + c.utf8Size) rest

/-- The characters of a document. -/
def spots (document : Text) : Except Fault (List Spot) :=
  if document.all isAllowed then .ok (locate 0 0 0 (unifyBreaks document)) else .error .character

namespace Spot

/-- The character `n` places ahead satisfies `p`. -/
def ahead (p : Char → Bool) (n : Nat) (s : List Spot) : Bool := (s[n]?).any fun c => p c.char

/-- A blank, a break or the end of the document stands `n` places ahead. -/
def gapAhead (n : Nat) (s : List Spot) : Bool :=
  (s[n]?).all fun c => isBlank c.char || isBreak c.char

/-- The text of spots. -/
def text (s : List Spot) : Text := s.map Spot.char

/-- The longest prefix with characters that satisfy `p`, as text, and what is left. -/
def span (p : Char → Bool) (s : List Spot) : Text × List Spot :=
  (text (s.takeWhile fun c => p c.char), s.dropWhile fun c => p c.char)

def drop (p : Char → Bool) (s : List Spot) : List Spot := s.dropWhile fun c => p c.char

/-- Three equal marks that begin a line and stand alone. -/
def isDocumentMark (s : List Spot) : Bool :=
  match s with
  | a :: b :: c :: rest =>
    a.column == 0 && a.char == b.char && b.char == c.char && (a.char == '-' || a.char == '.') &&
      gapAhead 0 rest
  | _ => false

end Spot
end StyledText.Yaml

import StyledText.Yaml.Token.Basic
import StyledText.Number.Digits

/-!
# Scalars

A scalar that runs over several lines is folded: one line feed becomes a space, each
further one is kept, and blanks around the breaks are dropped. Block scalars keep their
lines (literal) or fold those that are not indented further (folded); the indicator behind
the bar or angle says what becomes of the final breaks.
-/
namespace StyledText.Yaml

/-- Blanks and breaks between two characters of a scalar. -/
inductive Gap where
  | none
  | blanks (text : Text)
  /-- The first break, if it was not escaped, and the breaks behind it. -/
  | breaks (first : Option Char) (more : Text)
  deriving Repr

namespace Gap

def isNone : Gap → Bool
  | .none => true
  | _ => false

def hasBreak : Gap → Bool
  | .breaks _ _ => true
  | _ => false

def blank (c : Char) : Gap → Gap
  | .none => .blanks [c]
  | .blanks t => .blanks (t ++ [c])
  | .breaks first more => .breaks first more

def lineBreak (c : Char) : Gap → Gap
  | .breaks first more => .breaks first (more ++ [c])
  | _ => .breaks (some c) []

/-- What the gap leaves in the folded text. -/
def folded : Gap → Text
  | .none => []
  | .blanks t => t
  | .breaks Option.none more => more
  | .breaks (some '\n') [] => [' ']
  | .breaks (some '\n') more => more
  | .breaks (some c) more => c :: more

end Gap

/-- Text collected backwards, with a gap and a character behind it. -/
def collect (collected : Text) (gap : Gap) (c : Char) : Text :=
  c :: (gap.folded.reverse ++ collected)

def isFlowIndicator (c : Char) : Bool :=
  c == ',' || c == '[' || c == ']' || c == '\x7b' || c == '\x7d'

/-- The text of a plain scalar, whether breaks follow it, and what is left. Inside a flow
collection its indicators end a scalar; elsewhere a line less indented than `indent`
does. -/
def readPlain (flow : Bool) (indent : Int) (collected : Text) (gap : Gap) :
    List Spot → Except Fault (Text × Bool × List Spot)
  | [] => .ok (collected.reverse, gap.hasBreak, [])
  | s :: rest =>
    if isBlank s.char then
      if gap.hasBreak && (s.column : Int) < indent && s.char == '\t' then .error .token
      else readPlain flow indent collected (gap.blank s.char) rest
    else if isBreak s.char then readPlain flow indent collected (gap.lineBreak s.char) rest
    else if !gap.isNone && (s.char == '#' || Spot.isDocumentMark (s :: rest) ||
        (!flow && (s.column : Int) < indent)) then
      .ok (collected.reverse, gap.hasBreak, s :: rest)
    else if flow && s.char == ':' && Spot.ahead (fun c => isFlowIndicator c || c == '?') 0 rest then
      .error .token
    else if (s.char == ':' && Spot.gapAhead 0 rest) || (flow && isFlowIndicator s.char) then
      .ok (collected.reverse, gap.hasBreak, s :: rest)
    else readPlain flow indent (collect collected gap s.char) .none rest

/-- Where the reader of a quoted scalar stands. -/
inductive QuoteState where
  | ordinary
  /-- Behind a backslash. -/
  | escaped
  /-- Inside a code point with digits still to come. -/
  | code (remaining value : Nat)
  /-- Behind a single quote, which a second one would make part of the text. -/
  | quoteSeen
  deriving Repr

/-- Escapes of one character. -/
def escapes : List (Char × Char) :=
  [('0', '\x00'), ('a', '\x07'), ('b', '\x08'), ('t', '\t'), ('\t', '\t'), ('n', '\n'),
    ('v', '\x0b'), ('f', '\x0c'), ('r', '\r'), ('e', '\x1b'), (' ', ' '), ('"', '"'), ('/', '/'),
    ('\\', '\\'), ('N', '\u0085'), ('_', '\u00a0'), ('L', '\u2028'), ('P', '\u2029')]

/-- Number of digits of a code point behind an escape letter. -/
def codeLengths : List (Char × Nat) := [('x', 2), ('u', 4), ('U', 8)]

/-- The character of a code point, surrogates and larger numbers refused. -/
def charOf? (n : Nat) : Option Char := if n.isValidChar then some (Char.ofNat n) else none

/-- The text of a quoted scalar from behind its opening quote, and what is left. -/
def readQuoted (single : Bool) (collected : Text) (gap : Gap) (state : QuoteState) :
    List Spot → Except Fault (Text × List Spot)
  | [] =>
    match state with
    | .quoteSeen => .ok (collected.reverse, [])
    | _ => .error .token
  | s :: rest =>
    match state with
    | .quoteSeen =>
      if s.char = '\'' then readQuoted single ('\'' :: collected) .none .ordinary rest
      else .ok (collected.reverse, s :: rest)
    | .code remaining value =>
      let digit := Digits.value s.char
      if digit ≥ 16 then .error .token
      else
        let value := value * 16 + digit
        match remaining with
        | remaining + 2 =>
          readQuoted single collected .none (.code (remaining + 1) value) rest
        | _ =>
          match charOf? value with
          | some c => readQuoted single (c :: collected) .none .ordinary rest
          | none => .error .token
    | .escaped =>
      if isBreak s.char then readQuoted single collected (.breaks none []) .ordinary rest
      else
        match escapes.lookup s.char, codeLengths.lookup s.char with
        | some c, _ => readQuoted single (c :: collected) .none .ordinary rest
        | none, some n => readQuoted single collected .none (.code n 0) rest
        | none, none => .error .token
    | .ordinary =>
      if isBlank s.char then readQuoted single collected (gap.blank s.char) .ordinary rest
      else if isBreak s.char then
        readQuoted single collected (gap.lineBreak s.char) .ordinary rest
      else if Spot.isDocumentMark (s :: rest) then .error .token
      else
        let before := gap.folded.reverse ++ collected
        if single then
          if s.char = '\'' then readQuoted single before .none .quoteSeen rest
          else readQuoted single (s.char :: before) .none .ordinary rest
        else if s.char = '"' then .ok (before.reverse, rest)
        else if s.char = '\\' then readQuoted single before .none .escaped rest
        else readQuoted single (s.char :: before) .none .ordinary rest

/-- What becomes of the breaks at the end of a block scalar. -/
inductive Chomping where
  | strip | clip | keep
  deriving DecidableEq, Repr

/-- Chomping and indentation behind the mark of a block scalar, in either order. -/
def blockHeader (s : List Spot) : Except Fault (Chomping × Option Nat × List Spot) :=
  let chomping (s : List Spot) : Option Chomping × List Spot :=
    match s with
    | c :: rest =>
      if c.char = '+' then (some .keep, rest)
      else if c.char = '-' then (some .strip, rest)
      else (none, s)
    | [] => (none, [])
  let increment (s : List Spot) : Except Fault (Option Nat × List Spot) :=
    match s with
    | c :: rest =>
      if c.char = '0' then .error .token
      else if c.char.isDigit then .ok (some (Digits.value c.char), rest)
      else .ok (none, s)
    | [] => .ok (none, [])
  match chomping s with
  | (some way, rest) => do
    let (by_, rest) ← increment rest
    pure (way, by_, rest)
  | (none, rest) => do
    let (by_, rest) ← increment rest
    match by_, chomping rest with
    | some n, (some way, rest) => pure (way, some n, rest)
    | _, _ => pure (.clip, by_, rest)

/-- The rest of a line that may hold blanks and a comment only, its break included. -/
def endLine (s : List Spot) : Except Fault (List Spot) :=
  let s := Spot.drop isBlank s
  let s := if Spot.ahead (· == '#') 0 s then Spot.drop (!isBreak ·) s else s
  match s with
  | [] => .ok []
  | c :: rest => if isBreak c.char then .ok rest else .error .token

/-- Empty lines of a block scalar: the deepest column reached, their breaks, and what is
left. Spaces up to the indentation are skipped, or all of them while it is unknown. -/
def blockBreaks (indent : Option Nat) (deepest : Nat) (breaks : Text) :
    List Spot → Except Fault (Nat × Text × List Spot)
  | [] => .ok (deepest, breaks, [])
  | s :: rest =>
    let below := indent.all (s.column < ·)
    if below && s.char == ' ' then blockBreaks indent deepest breaks rest
    else
      let deepest := max deepest s.column
      if below && s.char == '\t' then .error .token
      else if isBreak s.char then blockBreaks indent deepest (breaks ++ [s.char]) rest
      else .ok (deepest, breaks, s :: rest)

/-- The break that follows a line of a block scalar and the lines behind it. -/
structure BlockLines where
  text : Text
  /-- The break of the line read last. -/
  pending : Text
  /-- Breaks of the empty lines behind it. -/
  empty : Text
  rest : List Spot

/-- Lines of a block scalar at the given indentation. `blankBefore` says whether the line
before starts with a blank, which keeps a folded scalar from folding. -/
def blockLines (literal : Bool) (indent : Nat) (blankBefore : Bool) (lines : BlockLines) :
    (remaining : Nat) → Except Fault BlockLines
  | 0 => .ok lines
  | remaining + 1 =>
    match lines.rest with
    | [] => .ok lines
    | s :: rest =>
      if s.column ≠ indent then .ok lines
      else do
        let blankHere := isBlank s.char
        let fold := !literal && lines.pending == ['\n'] && !blankBefore && !blankHere
        let joint :=
          if fold then (if lines.empty.isEmpty then [' '] else []) else lines.pending
        let (line, rest) := Spot.span (!isBreak ·) (s :: rest)
        let pending := Spot.text (rest.take 1)
        let (_, empty, rest) ← blockBreaks (some indent) 0 [] (rest.drop 1)
        blockLines literal indent blankHere
          ⟨lines.text ++ joint ++ lines.empty ++ line, pending, empty, rest⟩ remaining

/-- The text of a block scalar from behind its mark, and what is left. `parent` is the
indentation of the collection around it. -/
def readBlock (literal : Bool) (parent : Int) (s : List Spot) :
    Except Fault (Text × List Spot) := do
  let (chomping, increment, s) ← blockHeader s
  let s ← endLine s
  let given := increment.map fun n => (max parent 0).toNat + n
  let (deepest, empty, s) ← blockBreaks given 0 [] s
  let indent := given.getD (max deepest (max (parent + 1).toNat 1))
  let lines ← blockLines literal indent false ⟨[], [], empty, s⟩ (s.length + 1)
  let tail := match chomping with
    | .strip => []
    | .clip => lines.pending
    | .keep => lines.pending ++ lines.empty
  pure (lines.text ++ tail, lines.rest)

end StyledText.Yaml

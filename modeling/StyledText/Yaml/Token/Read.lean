import StyledText.Yaml.Token.Scalar
import StyledText.Yaml.Token.Tag

/-!
# Reading tokens

Block structure is told by columns: a token further right than the current indentation
opens a collection, one further left closes those it leaves. Whether a scalar, an alias or
a flow collection is a key shows only at the colon behind it, so the place of each possible
key is kept, one for every open flow collection, and the tokens that a key needs are put in
at that place. A possible key ends with its line or after 1024 bytes; one that had to be a
key, because it stands at the indentation of its mapping, is then a fault.
-/
namespace StyledText.Yaml

/-- A token that a colon would make a key. -/
structure PossibleKey where
  /-- Number of tokens before it. -/
  index : Nat
  line : Nat
  column : Nat
  offset : Nat
  required : Bool
  deriving Repr

structure Reader where
  tokens : Array Token := #[]
  rest : List Spot
  indent : Int := -1
  /-- Indentations around the current one, from the inside out. -/
  outer : List Int := []
  /-- A possible key for each open flow collection and the block around them, from the
  inside out. -/
  keys : List (Option PossibleKey) := [none]
  keyAllowed : Bool := true
  deriving Repr

namespace Reader

def inFlow (r : Reader) : Bool := r.keys.length > 1

def column (r : Reader) : Nat := (r.rest.head?.map Spot.column).getD 0

def add (r : Reader) (token : Token) : Reader := { r with tokens := r.tokens.push token }

def skip (r : Reader) (n : Nat) : Reader := { r with rest := r.rest.drop n }

/-- Put a token in at a place. -/
def addAt (r : Reader) (index : Nat) (token : Token) : Reader :=
  { r with tokens := (r.tokens.take index).push token ++ r.tokens.drop index }

/-- Give up the possible key of the innermost collection. -/
def dropKey (r : Reader) : Except Fault Reader :=
  match r.keys with
  | some key :: keys =>
    if key.required then .error .key else .ok { r with keys := none :: keys }
  | _ => .ok r

/-- Take the next token for a possible key, where keys are allowed. -/
def saveKey (r : Reader) : Except Fault Reader := do
  if r.keyAllowed then
    let r ← r.dropKey
    match r.rest with
    | [] => pure r
    | s :: _ =>
      let key := ⟨r.tokens.size, s.line, s.column, s.offset, !r.inFlow && r.indent == s.column⟩
      pure { r with keys := some key :: r.keys.drop 1 }
  else pure r

/-- Give up the possible keys that the line or the distance rules out. -/
def dropStaleKeys (r : Reader) : Except Fault Reader :=
  match r.rest with
  | [] => .ok r
  | s :: _ => do
    let keys ← r.keys.mapM fun key =>
      match key with
      | some k =>
        if k.line < s.line ∨ k.offset + 1024 < s.offset then
          if k.required then Except.error Fault.key else .ok none
        else .ok (some k)
      | none => .ok none
    pure { r with keys := keys }

/-- Open a block collection at a column further right than the indentation. -/
def openBlock (r : Reader) (column : Nat) (index : Nat) (token : Token) : Reader :=
  if !r.inFlow && r.indent < column then
    { r.addAt index token with indent := column, outer := r.indent :: r.outer }
  else r

/-- Close the block collections that are further right than a column. -/
def closeBlocks (column : Int) (tokens : Array Token) (indent : Int) :
    List Int → Array Token × Int × List Int
  | [] => (tokens, indent, [])
  | i :: outer =>
    if column < indent then closeBlocks column (tokens.push .blockEnd) i outer
    else (tokens, indent, i :: outer)

def unindent (r : Reader) (column : Int) : Reader :=
  if r.inFlow then r
  else
    let (tokens, indent, outer) := closeBlocks column r.tokens r.indent r.outer
    { r with tokens := tokens, indent := indent, outer := outer }

/-- Skip blanks, comments, breaks and byte order marks in front of a token. A tab counts as a
blank only where it cannot be indentation; a break allows a key outside flow collections. -/
def skipGap (inFlow keyAllowed comment : Bool) : List Spot → Bool × List Spot
  | [] => (keyAllowed, [])
  | s :: rest =>
    if isBreak s.char then skipGap inFlow (keyAllowed || !inFlow) false rest
    else if s.column == 0 && s.char == byteOrderMark then skipGap inFlow keyAllowed false rest
    else if comment then skipGap inFlow keyAllowed true rest
    else if s.char == ' ' || (s.char == '\t' && (inFlow || !keyAllowed)) then
      skipGap inFlow keyAllowed false rest
    else if s.char == '#' then skipGap inFlow keyAllowed true rest
    else (keyAllowed, s :: rest)

def flowStart (r : Reader) (token : Token) : Except Fault Reader := do
  let r ← r.saveKey
  pure { (r.add token).skip 1 with keys := none :: r.keys, keyAllowed := true }

def flowEnd (r : Reader) (token : Token) : Except Fault Reader := do
  let r ← r.dropKey
  let keys := if r.inFlow then r.keys.drop 1 else r.keys
  pure { (r.add token).skip 1 with keys := keys, keyAllowed := false }

def blockEntry (r : Reader) : Except Fault Reader := do
  if !r.inFlow && !r.keyAllowed then .error .token
  else
    let r := r.openBlock r.column r.tokens.size .blockSequenceStart
    let r ← r.dropKey
    pure { (r.add .blockEntry).skip 1 with keyAllowed := true }

def explicitKey (r : Reader) : Except Fault Reader := do
  if !r.inFlow && !r.keyAllowed then .error .token
  else
    let r := r.openBlock r.column r.tokens.size .blockMappingStart
    let r ← r.dropKey
    pure { (r.add .key).skip 1 with keyAllowed := !r.inFlow }

def valueMark (r : Reader) : Except Fault Reader :=
  match r.keys with
  | some key :: keys =>
    let r := { r.addAt key.index .key with keys := none :: keys }
    let r := r.openBlock key.column key.index .blockMappingStart
    .ok { (r.add .value).skip 1 with keyAllowed := false }
  | _ =>
    if !r.inFlow && !r.keyAllowed then .error .token
    else
      let r := r.openBlock r.column r.tokens.size .blockMappingStart
      .ok { (r.add .value).skip 1 with keyAllowed := !r.inFlow }

/-- A token that can be a key. -/
def keyed (r : Reader) (read : List Spot → Except Fault (Token × List Spot)) :
    Except Fault Reader := do
  let r ← r.saveKey
  let (token, rest) ← read (r.rest.drop 1)
  pure { r.add token with rest := rest, keyAllowed := false }

def plainScalar (r : Reader) : Except Fault Reader := do
  let r ← r.saveKey
  let (text, breaks, rest) ← readPlain r.inFlow (r.indent + 1) [] .none r.rest
  pure { r.add (.scalar text .plain) with rest := rest, keyAllowed := breaks }

def blockScalar (r : Reader) (literal : Bool) : Except Fault Reader := do
  let r ← r.dropKey
  let (text, rest) ← readBlock literal r.indent (r.rest.drop 1)
  let style := if literal then ScalarStyle.literal else .folded
  pure { r.add (.scalar text style) with rest := rest, keyAllowed := true }

/-- A directive or a mark between documents. -/
def between (r : Reader) (token : Token) (rest : List Spot) : Except Fault Reader := do
  let r ← (r.unindent (-1)).dropKey
  pure { r.add token with rest := rest, keyAllowed := false }

/-- Characters that begin no plain scalar. -/
def isIndicator (c : Char) : Bool := "-?:,[]\x7b\x7d#&*!|>'\"%@\x60".toList.contains c

/-- Read the token that starts with the character `c`. -/
def token (r : Reader) (c : Spot) : Except Fault Reader :=
  let alone := Spot.gapAhead 1 r.rest
  if c.column = 0 ∧ c.char = '%' then do
    let (directive, rest) ← readDirective (r.rest.drop 1)
    r.between directive rest
  else if Spot.isDocumentMark r.rest then
    r.between (if c.char = '-' then .documentStart else .documentEnd) (r.rest.drop 3)
  else if c.char = '[' then r.flowStart .flowSequenceStart
  else if c.char = '\x7b' then r.flowStart .flowMappingStart
  else if c.char = ']' then r.flowEnd .flowSequenceEnd
  else if c.char = '\x7d' then r.flowEnd .flowMappingEnd
  else if c.char = ',' then do
    let r ← r.dropKey
    pure { (r.add .flowEntry).skip 1 with keyAllowed := true }
  else if c.char = '-' ∧ alone then r.blockEntry
  else if c.char = '?' ∧ (r.inFlow ∨ alone) then r.explicitKey
  else if c.char = ':' ∧ (r.inFlow ∨ alone) then r.valueMark
  else if c.char = '*' then
    r.keyed fun s => (readAnchorName s).map fun (name, rest) => (.reference name, rest)
  else if c.char = '&' then
    r.keyed fun s => (readAnchorName s).map fun (name, rest) => (.anchor name, rest)
  else if c.char = '!' then
    r.keyed fun s => (readTag r.inFlow (c :: s)).map fun (handle, suffix, rest) =>
      (.tag handle suffix, rest)
  else if c.char = '|' ∧ ¬r.inFlow then r.blockScalar true
  else if c.char = '>' ∧ ¬r.inFlow then r.blockScalar false
  else if c.char = '\'' then
    r.keyed fun s => (readQuoted true [] .none .ordinary s).map fun (text, rest) =>
      (.scalar text .singleQuoted, rest)
  else if c.char = '"' then
    r.keyed fun s => (readQuoted false [] .none .ordinary s).map fun (text, rest) =>
      (.scalar text .doubleQuoted, rest)
  else if !isIndicator c.char || (c.char == '-' && !Spot.ahead isBlank 1 r.rest) ||
      (!r.inFlow && (c.char == '?' || c.char == ':') && !alone) then
    if isBlank c.char then .error .token else r.plainScalar
  else .error .token

/-- Read tokens to the end of the document; each consumes a character. -/
def run (r : Reader) : (remaining : Nat) → Except Fault (List Token)
  | 0 => .error .token
  | remaining + 1 => do
    let (keyAllowed, rest) := skipGap r.inFlow r.keyAllowed false r.rest
    let r ← { r with keyAllowed := keyAllowed, rest := rest }.dropStaleKeys
    match r.rest with
    | [] =>
      let r ← (r.unindent (-1)).dropKey
      pure r.tokens.toList
    | c :: _ =>
      let r ← (r.unindent c.column).token c
      r.run remaining

end Reader

/-- The tokens of a document. -/
def tokens (document : Text) : Except Fault (List Token) := do
  let s ← spots document
  Reader.run { rest := s } (s.length + 1)

end StyledText.Yaml

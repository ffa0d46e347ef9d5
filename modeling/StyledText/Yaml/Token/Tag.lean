import StyledText.Yaml.Token.Basic
import StyledText.Number.Digits

/-!
# Tags, anchors and directives
-/
namespace StyledText.Yaml

/-- The name of an anchor or alias, which a separator must follow. -/
def readAnchorName (s : List Spot) : Except Fault (Text × List Spot) :=
  let (name, rest) := Spot.span isWord s
  let ends := Spot.gapAhead 0 rest ||
    Spot.ahead (fun c => "?:,]\x7d%@\x60".toList.contains c) 0 rest
  if name ≠ [] ∧ ends then .ok (name, rest) else .error .token

def isUriChar (verbatim : Bool) (c : Char) : Bool :=
  isWord c || ";/?:@&=+$.!~*'()".toList.contains c ||
    (verbatim && (c == ',' || c == '[' || c == ']'))

/-- One byte written as a percent sign and two digits. -/
def percentByte? : List Spot → Option (UInt8 × List Spot)
  | p :: h :: l :: rest =>
    if p.char = '%' ∧ Digits.isDigit 16 h.char ∧ Digits.isDigit 16 l.char then
      some (UInt8.ofNat (Digits.value h.char * 16 + Digits.value l.char), rest)
    else none
  | _ => none

/-- How many bytes continue the character that a byte begins. -/
def continuations? (lead : UInt8) : Option Nat :=
  if lead < 0x80 then some 0
  else if lead.toNat / 32 = 6 then some 1
  else if lead.toNat / 16 = 14 then some 2
  else if lead.toNat / 8 = 30 then some 3
  else none

/-- Bytes that continue a character. -/
def percentTail (s : List Spot) : Nat → Option (TagBytes × List Spot)
  | 0 => some ([], s)
  | n + 1 => do
    let (b, rest) ← percentByte? s
    if b.toNat / 64 = 2 then
      let (more, rest) ← percentTail rest n
      pure (b :: more, rest)
    else none

/-- Bytes that have the form of one character, which need not be a character that exists. -/
def percentBytes? (s : List Spot) : Option (TagBytes × List Spot) := do
  let (lead, rest) ← percentByte? s
  let (more, rest) ← percentTail rest (← continuations? lead)
  pure (lead :: more, rest)

/-- Characters of a tag address; those that it may not hold as they are stand in bytes. -/
def readUri (verbatim : Bool) (s : List Spot) : (remaining : Nat) →
    Except Fault (TagBytes × List Spot)
  | 0 => .ok ([], s)
  | remaining + 1 =>
    match s with
    | [] => .ok ([], [])
    | c :: rest =>
      if c.char = '%' then
        match percentBytes? s with
        | some (bytes, rest) => do
          let (more, rest) ← readUri verbatim rest remaining
          pure (bytes ++ more, rest)
        | none => .error .token
      else if isUriChar verbatim c.char then do
        let (more, rest) ← readUri verbatim rest remaining
        pure (Text.toUtf8 [c.char] ++ more, rest)
      else .ok ([], s)

/-- The bytes up to a zero byte. -/
def upToZero (bytes : TagBytes) : TagBytes := bytes.takeWhile (· != 0)

/-- A tag handle: an exclamation mark, or a word between two. -/
def readHandle (s : List Spot) : Text × List Spot :=
  match s with
  | c :: rest =>
    if c.char = '!' then
      let (word, rest) := Spot.span isWord rest
      match rest with
      | d :: more => if d.char = '!' then ('!' :: word ++ ['!'], more) else ('!' :: word, rest)
      | [] => ('!' :: word, [])
    else ([], s)
  | [] => ([], [])

/-- Handle and suffix of a tag from its exclamation mark on, and what is left. -/
def readTag (flow : Bool) (s : List Spot) : Except Fault (Text × TagBytes × List Spot) := do
  let (handle, suffix, rest) ←
    if Spot.ahead (· == '<') 1 s then do
      let (uri, rest) ← readUri true (s.drop 2) s.length
      if uri ≠ [] ∧ Spot.ahead (· == '>') 0 rest then
        pure (([] : Text), upToZero uri, rest.drop 1)
      else .error .token
    else do
      let (handle, rest) := readHandle s
      if handle.length > 1 ∧ handle.getLast? = some '!' then
        let (uri, rest) ← readUri false rest s.length
        if uri = [] then .error .token else pure (handle, upToZero uri, rest)
      else
        let (uri, rest) ← readUri false rest s.length
        match upToZero (Text.toUtf8 (handle.drop 1) ++ uri) with
        | [] => pure (([] : Text), Text.toUtf8 ['!'], rest)
        | suffix => pure ((['!'] : Text), suffix, rest)
  if Spot.gapAhead 0 rest || (flow && Spot.ahead (· == ',') 0 rest) then
    pure (handle, suffix, rest)
  else .error .token

/-- A version of at most nine digits on each side of the point. -/
def readVersion (s : List Spot) : Except Fault (Token × List Spot) :=
  let (major, rest) := Spot.span Char.isDigit (Spot.drop isBlank s)
  if Spot.ahead (· == '.') 0 rest then
    let (minor, rest) := Spot.span Char.isDigit (rest.drop 1)
    if major ≠ [] ∧ major.length ≤ 9 ∧ minor ≠ [] ∧ minor.length ≤ 9 then
      .ok (.version (Digits.toNat 10 major) (Digits.toNat 10 minor), rest)
    else .error .token
  else .error .token

/-- A handle and the start of the tags written with it. -/
def readTagDirective (s : List Spot) : Except Fault (Token × List Spot) := do
  let (handle, rest) := readHandle (Spot.drop isBlank s)
  let whole := handle.length = 1 ∨ handle.getLast? = some '!'
  if handle = [] ∨ ¬whole ∨ ¬Spot.ahead isBlank 0 rest then .error .token
  else
    let (uri, rest) ← readUri true (Spot.drop isBlank rest) s.length
    if uri ≠ [] ∧ Spot.gapAhead 0 rest then pure (.tagDirective handle (upToZero uri), rest)
    else .error .token

/-- A directive from behind its percent sign, its line included. -/
def readDirective (s : List Spot) : Except Fault (Token × List Spot) := do
  let (name, rest) := Spot.span isWord s
  if ¬Spot.gapAhead 0 rest then .error .token
  else
    let (token, rest) ←
      if name = "YAML".toList then readVersion rest
      else if name = "TAG".toList then readTagDirective rest
      else .error .token
    let rest := Spot.drop isBlank rest
    let rest := if Spot.ahead (· == '#') 0 rest then Spot.drop (!isBreak ·) rest else rest
    match rest with
    | [] => pure (token, [])
    | c :: more => if isBreak c.char then pure (token, more) else .error .token

end StyledText.Yaml

import StyledText.Yaml.Token.Read

/-!
# Nodes of a document

Tokens form a tree of scalars, sequences and mappings. A node may carry an anchor, to which
later aliases refer, and a tag. Where a key, a value or an item is missing an empty plain
scalar stands for it.
-/
namespace StyledText.Yaml

/-- Anchor and tag of a node. -/
structure Properties where
  anchor : Option Text := none
  tag : Option TagBytes := none
  deriving DecidableEq, Repr, Inhabited

inductive Node where
  | reference (name : Text)
  | scalar (properties : Properties) (text : Text) (style : ScalarStyle)
  | sequence (properties : Properties) (items : List Node)
  | mapping (properties : Properties) (entries : List (Node × Node))
  deriving Repr, Inhabited

namespace Node

/-- What stands where a node is missing. -/
def missing : Node := .scalar {} [] .plain

/-- Handles of tags and what they stand for. -/
abbrev Handles := List (Text × TagBytes)

def standardHandles : Handles :=
  [("!", Text.toUtf8 "!"), ("!!", Text.toUtf8 "tag:yaml.org,2002:")]

/-- A tag written out. -/
def resolveTag (handles : Handles) (handle : Text) (suffix : TagBytes) : Except Fault TagBytes :=
  if handle = [] then .ok suffix
  else match handles.lookup handle with
    | some start => .ok (start ++ suffix)
    | none => .error .layout

/-- Anchor and tag in front of a node, in either order. -/
def readProperties (handles : Handles) : List Token → Except Fault (Properties × List Token)
  | .anchor a :: .tag h s :: rest => do pure (⟨some a, some (← resolveTag handles h s)⟩, rest)
  | .tag h s :: .anchor a :: rest => do pure (⟨some a, some (← resolveTag handles h s)⟩, rest)
  | .anchor a :: rest => .ok (⟨some a, none⟩, rest)
  | .tag h s :: rest => do pure (⟨none, some (← resolveTag handles h s)⟩, rest)
  | rest => .ok ({}, rest)

/-- The next token ends a key, a value or an item before it began. -/
def startsNone (stops : List Token) (rest : List Token) : Bool :=
  match rest with
  | [] => true
  | token :: _ => stops.contains token

mutual

/-- A node. `block` says whether block collections may begin here, `indentless` whether the
items of a sequence may stand at the indentation of the mapping around them. -/
def read (handles : Handles) (block indentless : Bool) (tokens : List Token) :
    (remaining : Nat) → Except Fault (Node × List Token)
  | 0 => .error .limit
  | remaining + 1 =>
    match tokens with
    | .reference name :: rest => .ok (.reference name, rest)
    | _ => do
      let (p, rest) ← readProperties handles tokens
      match rest with
      | .scalar text style :: rest => pure (.scalar p text style, rest)
      | .flowSequenceStart :: rest => do
        let (items, rest) ← readFlowItems handles true rest remaining
        pure (.sequence p items, rest)
      | .flowMappingStart :: rest => do
        let (entries, rest) ← readFlowEntries handles true rest remaining
        pure (.mapping p entries, rest)
      | .blockEntry :: _ =>
        if indentless then do
          let (items, rest) ← readIndentlessItems handles rest remaining
          pure (.sequence p items, rest)
        else if p = {} then .error .layout
        else pure (.scalar p [] .plain, rest)
      | .blockSequenceStart :: more =>
        if block then do
          let (items, rest) ← readBlockItems handles more remaining
          pure (.sequence p items, rest)
        else if p = {} then .error .layout
        else pure (.scalar p [] .plain, rest)
      | .blockMappingStart :: more =>
        if block then do
          let (entries, rest) ← readBlockEntries handles more remaining
          pure (.mapping p entries, rest)
        else if p = {} then .error .layout
        else pure (.scalar p [] .plain, rest)
      | _ => if p = {} then .error .layout else pure (.scalar p [] .plain, rest)

/-- A node, or the empty scalar when one of `stops` comes first. -/
def readUnless (handles : Handles) (stops : List Token) (block indentless : Bool)
    (tokens : List Token) : (remaining : Nat) → Except Fault (Node × List Token)
  | 0 => .error .limit
  | remaining + 1 =>
    if startsNone stops tokens then .ok (missing, tokens)
    else read handles block indentless tokens remaining

/-- Items of a block sequence, up to its end. -/
def readBlockItems (handles : Handles) (tokens : List Token) :
    (remaining : Nat) → Except Fault (List Node × List Token)
  | 0 => .error .limit
  | remaining + 1 =>
    match tokens with
    | .blockEntry :: rest => do
      let (item, rest) ←
        readUnless handles [.blockEntry, .blockEnd] true false rest remaining
      let (items, rest) ← readBlockItems handles rest remaining
      pure (item :: items, rest)
    | .blockEnd :: rest => .ok ([], rest)
    | _ => .error .layout

/-- Items that stand at the indentation of the mapping around them. -/
def readIndentlessItems (handles : Handles) (tokens : List Token) :
    (remaining : Nat) → Except Fault (List Node × List Token)
  | 0 => .error .limit
  | remaining + 1 =>
    match tokens with
    | .blockEntry :: rest => do
      let (item, rest) ←
        readUnless handles [.blockEntry, .key, .value, .blockEnd] true false rest remaining
      let (items, rest) ← readIndentlessItems handles rest remaining
      pure (item :: items, rest)
    | rest => .ok ([], rest)

/-- Entries of a block mapping, up to its end. -/
def readBlockEntries (handles : Handles) (tokens : List Token) :
    (remaining : Nat) → Except Fault (List (Node × Node) × List Token)
  | 0 => .error .limit
  | remaining + 1 =>
    match tokens with
    | .key :: rest => do
      let stops := [Token.key, .value, .blockEnd]
      let (key, rest) ← readUnless handles stops true true rest remaining
      let (value, rest) ←
        match rest with
        | .value :: rest => readUnless handles stops true true rest remaining
        | rest => pure (missing, rest)
      let (entries, rest) ← readBlockEntries handles rest remaining
      pure ((key, value) :: entries, rest)
    | .blockEnd :: rest => .ok ([], rest)
    | _ => .error .layout

/-- Items of a flow sequence, up to its end. An item with a key is a mapping of one entry;
without a node for its key the next token is passed over. -/
def readFlowItems (handles : Handles) (first : Bool) (tokens : List Token) :
    (remaining : Nat) → Except Fault (List Node × List Token)
  | 0 => .error .limit
  | remaining + 1 =>
    match tokens with
    | .flowSequenceEnd :: rest => .ok ([], rest)
    | _ => do
      let tokens ← match first, tokens with
        | true, _ => pure tokens
        | false, .flowEntry :: rest => pure rest
        | false, _ => Except.error Fault.layout
      match tokens with
      | .flowSequenceEnd :: rest => pure ([], rest)
      | .key :: rest => do
        let (key, rest) ←
          if startsNone [.value, .flowEntry, .flowSequenceEnd] rest then
            pure (missing, rest.drop 1)
          else read handles false false rest remaining
        let (value, rest) ←
          match rest with
          | .value :: rest =>
            readUnless handles [.flowEntry, .flowSequenceEnd] false false rest remaining
          | rest => pure (missing, rest)
        let (items, rest) ← readFlowItems handles false rest remaining
        pure (.mapping {} [(key, value)] :: items, rest)
      | _ => do
        let (item, rest) ← read handles false false tokens remaining
        let (items, rest) ← readFlowItems handles false rest remaining
        pure (item :: items, rest)

/-- Entries of a flow mapping, up to its end. A node without a key mark is a key without a
value. -/
def readFlowEntries (handles : Handles) (first : Bool) (tokens : List Token) :
    (remaining : Nat) → Except Fault (List (Node × Node) × List Token)
  | 0 => .error .limit
  | remaining + 1 =>
    match tokens with
    | .flowMappingEnd :: rest => .ok ([], rest)
    | _ => do
      let tokens ← match first, tokens with
        | true, _ => pure tokens
        | false, .flowEntry :: rest => pure rest
        | false, _ => Except.error Fault.layout
      match tokens with
      | .flowMappingEnd :: rest => pure ([], rest)
      | .key :: rest => do
        let (key, rest) ←
          readUnless handles [.value, .flowEntry, .flowMappingEnd] false false rest remaining
        let (value, rest) ←
          match rest with
          | .value :: rest =>
            readUnless handles [.flowEntry, .flowMappingEnd] false false rest remaining
          | rest => pure (missing, rest)
        let (entries, rest) ← readFlowEntries handles false rest remaining
        pure ((key, value) :: entries, rest)
      | _ => do
        let (key, rest) ← read handles false false tokens remaining
        let (entries, rest) ← readFlowEntries handles false rest remaining
        pure ((key, missing) :: entries, rest)

end

/-- Directives in front of a document: at most one version, of the first major release, and
handles that are all different. -/
def readDirectives (handles : Handles) (version : Bool) :
    List Token → Except Fault (Handles × List Token)
  | .version major minor :: rest =>
    if version ∨ major ≠ 1 ∨ (minor ≠ 1 ∧ minor ≠ 2) then .error .layout
    else readDirectives handles true rest
  | .tagDirective handle start :: rest =>
    if (handles.lookup handle).isSome then .error .layout
    else readDirectives ((handle, start) :: handles) version rest
  | rest => .ok (handles, rest)

/-- What may follow a document: marks that end it. -/
def endsDocument (tokens : List Token) : Bool := tokens.all (· == .documentEnd)

/-- The node of a whole document, if it holds one; a second document is refused. -/
def ofTokens (tokens : List Token) : Except Fault (Option Node) := do
  let remaining := 4 * tokens.length + 8
  let body (handles : Handles) (tokens : List Token) : Except Fault (Option Node) := do
    let (node, rest) ← read handles true false tokens remaining
    if endsDocument rest then pure (some node) else .error .layout
  match tokens with
  | [] => pure none
  | .version _ _ :: _ | .tagDirective _ _ :: _ | .documentStart :: _ =>
    let (own, rest) ← readDirectives [] false tokens
    match rest with
    | .documentStart :: rest =>
      match rest with
      | [] | .documentEnd :: _ =>
        if endsDocument rest then pure (some missing) else .error .layout
      | _ => body (own ++ standardHandles) rest
    | _ => .error .layout
  | _ => body standardHandles tokens

end Node
end StyledText.Yaml

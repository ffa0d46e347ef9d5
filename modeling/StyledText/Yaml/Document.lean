import StyledText.Yaml.Node
import StyledText.Yaml.Schema
import StyledText.Yaml.Value

/-!
# The value of a document

An alias stands for the node of its anchor. Anchors are numbered in the order of the
document by how many names there are, so a name used anew and the next new name share a
number; an alias stands for the last node of its number. Nesting is limited to 128 levels
and the aliases followed to a hundred for each event of the document.
-/
namespace StyledText.Yaml

/-- A node whose aliases are numbers. -/
inductive Linked where
  | reference (number : Nat)
  | scalar (tag : Option TagBytes) (text : Text) (style : ScalarStyle)
  | sequence (tag : Option TagBytes) (items : List Linked)
  | mapping (tag : Option TagBytes) (entries : List (Linked × Linked))
  deriving Repr, Inhabited

/-- Numbers of anchor names, and for each anchor the place of its node in document order. -/
structure Anchors where
  names : List (Text × Nat) := []
  /-- Number, place in document order, and node, for the nodes read so far. -/
  nodes : List (Nat × Nat × Linked) := []
  /-- Nodes begun so far. -/
  begun : Nat := 0

namespace Anchors

/-- Number a name: as many as there are names already. -/
def number (a : Anchors) (name : Text) : Nat × Anchors :=
  let n := a.names.length
  (n, { a with names := (name, n) :: a.names.filter fun entry => entry.1 ≠ name })

/-- The node of a number: the one that begins last. -/
def node? (a : Anchors) (n : Nat) : Option Linked :=
  ((a.nodes.filter fun entry => entry.1 = n).foldl
    (fun best entry =>
      match best with
      | some (place, _) => if entry.2.1 ≥ place then some entry.2 else best
      | none => some entry.2)
    (none : Option (Nat × Linked))).map Prod.snd

end Anchors

namespace Node

/-- Begin a node with an optional anchor: its number and place. -/
def begin_ (anchor : Option Text) (a : Anchors) : Option (Nat × Nat) × Anchors :=
  let a := { a with begun := a.begun + 1 }
  match anchor with
  | none => (none, a)
  | some name => let (n, a) := a.number name; (some (n, a.begun), a)

/-- Record a node under its number. -/
def record (mark : Option (Nat × Nat)) (node : Linked) (a : Anchors) : Linked × Anchors :=
  match mark with
  | none => (node, a)
  | some (n, place) => (node, { a with nodes := (n, place, node) :: a.nodes })

mutual

/-- Number the anchors of a node and the aliases that refer to them. -/
def link : Node → Anchors → Except Fault (Linked × Anchors)
  | .reference name, a =>
    match a.names.lookup name with
    | some n => .ok (.reference n, a)
    | none => .error .anchor
  | .scalar p text style, a =>
    let (mark, a) := begin_ p.anchor a
    .ok (record mark (.scalar p.tag text style) a)
  | .sequence p items, a => do
    let (mark, a) := begin_ p.anchor a
    let (items, a) ← linkItems items a
    pure (record mark (.sequence p.tag items) a)
  | .mapping p entries, a => do
    let (mark, a) := begin_ p.anchor a
    let (entries, a) ← linkEntries entries a
    pure (record mark (.mapping p.tag entries) a)

def linkItems : List Node → Anchors → Except Fault (List Linked × Anchors)
  | [], a => .ok ([], a)
  | item :: items, a => do
    let (item, a) ← link item a
    let (items, a) ← linkItems items a
    pure (item :: items, a)

def linkEntries : List (Node × Node) → Anchors → Except Fault (List (Linked × Linked) × Anchors)
  | [], a => .ok ([], a)
  | entry :: entries, a => do
    let (entry, a) ← linkEntry entry a
    let (entries, a) ← linkEntries entries a
    pure (entry :: entries, a)

def linkEntry : Node × Node → Anchors → Except Fault ((Linked × Linked) × Anchors)
  | (key, value), a => do
    let (key, a) ← link key a
    let (value, a) ← link value a
    pure ((key, value), a)

end

mutual

/-- Number of events that write a node: one for a scalar or an alias, two around the
members of a collection. -/
def events : Node → Nat
  | .reference _ => 1
  | .scalar _ _ _ => 1
  | .sequence _ items => 2 + eventsOfItems items
  | .mapping _ entries => 2 + eventsOfEntries entries

def eventsOfItems : List Node → Nat
  | [] => 0
  | item :: items => events item + eventsOfItems items

def eventsOfEntries : List (Node × Node) → Nat
  | [] => 0
  | entry :: entries => eventsOfEntry entry + eventsOfEntries entries

def eventsOfEntry : Node × Node → Nat
  | (key, value) => events key + events value

end

end Node

/-- A document whose aliases are resolved on demand. -/
structure Document where
  root : Option Linked
  anchors : Anchors
  /-- Number of events of the document. -/
  events : Nat

namespace Document

/-- Read the structure of a document. -/
def read (text : Text) : Except Fault Document := do
  match ← Node.ofTokens (← tokens text) with
  | none => pure ⟨none, {}, 1⟩
  | some node =>
    let (root, anchors) ← node.link {}
    pure ⟨some root, anchors, node.events⟩

/-- The node that stands for an alias. -/
def target (d : Document) : Linked → Linked
  | .reference n => (d.anchors.node? n).getD (.reference n)
  | node => node

end Document

/-- A tag of the document's own begins with an exclamation mark. -/
def isLocalTag : TagBytes → Bool
  | b :: _ => b == '!'.toUInt8
  | [] => false

/-- The name of a tag of the document's own: what follows its exclamation mark, or the mark
where nothing does. Bytes that are no text are no name. -/
def localName? : Option TagBytes → Option Text
  | some (b :: name) =>
    if b == '!'.toUInt8 then Text.ofUtf8? (if name = [] then [b] else name) else none
  | _ => none

/-- A name without an exclamation mark in front of something. -/
def withoutMark : Text → Text
  | '!' :: c :: rest => c :: rest
  | name => name

/-- The tag of a standard type. -/
def standardTag (name : Text) : TagBytes := Text.toUtf8 ("tag:yaml.org,2002:".toList ++ name)

namespace Schema

/-- The value of a plain scalar. -/
def plain (t : Text) : Except Fault Value :=
  if t = [] ∨ isNull t then .ok .null
  else match bool? t with
    | some b => .ok (.bool b)
    | none =>
      match integer? t with
      | some (.value i) => .ok (.number (.integer i))
      | some .tooLarge => .error .scalar
      | none =>
        match if hasLeadingZero t then none else float? t with
        | some x => .ok (.number (.float x))
        | none => .ok (.string t)

/-- The value of a scalar under a tag that gives it no name. The text has to fit the tag of a
standard type. -/
def tagged (tag : TagBytes) (t : Text) (style : ScalarStyle) : Except Fault Value :=
  if tag = standardTag "bool" then
    match bool? t with
    | some b => .ok (.bool b)
    | none => .error .scalar
  else if tag = standardTag "int" then
    match integer? t with
    | some (.value i) => .ok (.number (.integer i))
    | _ => .error .scalar
  else if tag = standardTag "float" then
    match float? t with
    | some x => .ok (.number (.float x))
    | none => .error .scalar
  else if tag = standardTag "null" then
    if isNull t then .ok .null else .error .scalar
  else if isLocalTag tag ∧ style = .plain then plain t
  else .ok (.string t)

/-- The value of a scalar. -/
def scalar (tag : Option TagBytes) (t : Text) (style : ScalarStyle) : Except Fault Value :=
  match localName? tag, tag with
  | some name, _ => do
    let value ← if style = .plain then plain t else pure (.string t)
    pure (.tagged (withoutMark name) value)
  | none, some tag => tagged tag t style
  | none, none => if style = .plain then plain t else .ok (.string t)

end Schema

namespace Value

/-- A value under the tag of its node, if that is one of the document's own. -/
def underTag (tag : Option TagBytes) (value : Value) : Value :=
  match localName? tag with
  | some name => .tagged (withoutMark name) value
  | none => value

/-- The value of a node nested at most `depth` deep. The state counts how many aliases may
still be followed. -/
def ofNode (d : Document) (depth : Nat) (node : Linked) : StateT Nat (Except Fault) Value := do
  if let .reference _ := node then
    match ← get with
    | 0 => throw .limit
    | n + 1 => set n
  match d.target node, depth with
  | .reference _, _ => throw .limit
  | .scalar tag text style, _ => Schema.scalar tag text style
  | .sequence _ _, 0 => throw .limit
  | .mapping _ _, 0 => throw .limit
  | .sequence tag items, depth + 1 => do
    let values ← items.mapM (ofNode d depth)
    pure (underTag tag (.sequence values))
  | .mapping tag entries, depth + 1 => do
    let entries ← entries.foldlM
      (fun (done : Entries) (key, value) => do
        let key ← ofNode d depth key
        if (Entries.get? key done).isSome then throw .duplicate
        let value ← ofNode d depth value
        pure (done ++ [(key, value)]))
      []
    pure (underTag tag (.mapping entries))

/-- The value of a document; one without content is null. -/
def parse (text : Text) : Except Fault Value := do
  let d ← Document.read text
  match d.root with
  | none => pure .null
  | some node => (ofNode d 128 node).run' (100 * d.events)

end Value
end StyledText.Yaml

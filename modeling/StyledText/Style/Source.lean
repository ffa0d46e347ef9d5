import StyledText.Yaml.Document
import StyledText.Style.Attributes

/-!
# Style attributes written as a document

Attributes are read from the nodes of a document, so a field that holds text takes a plain
scalar as it is spelled. An empty document sets nothing; a field may be written once and
keys that name no field are passed over.
-/
namespace StyledText.Style.Source

open Yaml

/-- Nothing is written where a collection is expected. -/
def isNothing : Linked → Bool
  | .scalar _ text style => text = [] && style = .plain
  | _ => false

/-- A scalar as it is spelled. -/
def text (d : Document) (node : Linked) : Except Fault Text :=
  match d.target node with
  | .scalar _ text _ => .ok text
  | _ => .error .scalar

/-- A count: a plain scalar under any tag, or a literal one under the tag of integers. -/
def count (d : Document) (node : Linked) : Except Fault Nat :=
  match d.target node with
  | .scalar tag text style =>
    if style = .plain ∨ (style = .literal ∧ tag = some (standardTag "int")) then
      match Schema.natural? Digits.maxWord text with
      | some n => .ok n
      | none => .error .scalar
    else .error .scalar
  | _ => .error .scalar

/-- A plain scalar that spells null or is empty. -/
def isUnset (text : Text) (style : ScalarStyle) : Bool :=
  style = .plain && (text = [] || Schema.isNull text)

/-- A field that may be unset. The tag of null admits null alone. -/
def optional {α : Type} (read : Document → Linked → Except Fault α) (d : Document)
    (node : Linked) : Except Fault (Option α) :=
  match d.target node with
  | .scalar (some tag) text .plain =>
    if tag = standardTag "null" then
      if Schema.isNull text then .ok none else .error .scalar
    else (read d node).map some
  | .scalar none text style =>
    if isUnset text style then .ok none else (read d node).map some
  | _ => (read d node).map some

/-- A choice by name, as a scalar or as the tag in front of one. -/
def choice (d : Document) (node : Linked) : Except Fault (Text × Option (Text × ScalarStyle)) :=
  match d.target node with
  | .scalar tag text style =>
    match localName? tag with
    | some name => .ok (name, some (text, style))
    | none => .ok (text, none)
  | _ => .error .scalar

/-- One of several names that stand alone; behind a tag only null may follow. -/
def named {α : Type} (ofName? : Text → Option α) (d : Document) (node : Linked) :
    Except Fault α := do
  let (name, behind) ← choice d node
  if behind.all fun (text, style) => isUnset text style then
    match ofName? name with
    | some value => pure value
    | none => .error .scalar
  else .error .scalar

/-- A width: `full`, or the tag `columns` in front of a count. -/
def width (d : Document) (node : Linked) : Except Fault Width := do
  match ← choice d node with
  | (name, some (text, style)) =>
    if name = "full".toList then
      if isUnset text style then pure .full else .error .scalar
    else if name = "columns".toList ∧ style = .plain then
      match Schema.natural? Digits.maxWord text with
      | some n => pure (.columns n)
      | none => .error .scalar
    else .error .scalar
  | (name, none) => if name = "full".toList then pure .full else .error .scalar

def decorations (d : Document) (node : Linked) : Except Fault Decorations :=
  match d.target node with
  | .sequence _ items => do
    let ds ← items.mapM (named Decoration.ofName? d)
    pure (.ofList ds)
  | other => if isNothing other then .ok .empty else .error .scalar

def set (d : Document) (a : Attributes) (field : Text) (node : Linked) :
    Except Fault Attributes := do
  if field = "color".toList then pure { a with color := ← optional text d node }
  else if field = "bg".toList then pure { a with background := ← optional text d node }
  else if field = "decorations".toList then pure { a with decorations := ← decorations d node }
  else if field = "padding_left".toList then pure { a with paddingLeft := ← optional count d node }
  else if field = "padding_right".toList then
    pure { a with paddingRight := ← optional count d node }
  else if field = "margin_left".toList then pure { a with marginLeft := ← optional count d node }
  else if field = "margin_right".toList then pure { a with marginRight := ← optional count d node }
  else if field = "width".toList then pure { a with width := ← optional width d node }
  else if field = "text_align".toList then
    pure { a with align := ← optional (named Align.ofName?) d node }
  else if field = "display".toList then
    pure { a with display := ← optional (named Display.ofName?) d node }
  else pure a

/-- Read entries one after the other; `seen` are the fields written so far. -/
def entries (d : Document) (seen : List Text) (a : Attributes) :
    List (Linked × Linked) → Except Fault Attributes
  | [] => .ok a
  | (key, value) :: rest => do
    let field ← text d key
    if seen.contains field then .error .duplicate
    else
      let a ← set d a field value
      entries d (if Attributes.fields.contains field then field :: seen else seen) a rest

/-- The attributes that a document sets. -/
def parse (t : Text) : Except Fault Attributes := do
  let d ← Document.read t
  match d.root with
  | none => pure {}
  | some (.mapping _ pairs) => entries d [] {} pairs
  | some root => if isNothing root then pure {} else .error .layout

end StyledText.Style.Source

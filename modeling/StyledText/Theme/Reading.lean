import StyledText.Theme.Basic

/-!
# Reading theme variables

A variable is read as a type it may have. Tags are looked through where a plain value is
wanted; where one of several names is wanted a tag gives the name.
-/
namespace StyledText.Yaml.Value

open Style

/-- An integer between bounds. -/
def integer? (low high : Int) (value : Value) : Option Int :=
  match value.untagged with
  | .number (.integer i) => if low ≤ i ∧ i ≤ high then some i else none
  | _ => none

/-- A count that fits 64 bits. -/
def count? (value : Value) : Option Nat := (integer? 0 Digits.maxWord value).map Int.toNat

/-- A number up to 255. -/
def byte? (value : Value) : Option Nat := (integer? 0 255 value).map Int.toNat

def float? (value : Value) : Option Float :=
  match value.untagged with
  | .number n => some n.toFloat
  | _ => none

def bool? (value : Value) : Option Bool :=
  match value.untagged with
  | .bool b => some b
  | _ => none

def string? (value : Value) : Option Text :=
  match value.untagged with
  | .string t => some t
  | _ => none

def char? (value : Value) : Option Char :=
  match value.string? with
  | some [c] => some c
  | _ => none

/-- The items of a sequence; null has none. -/
def items? (value : Value) : Option (List Value) :=
  match value.untagged with
  | .sequence items => some items
  | .null => some []
  | _ => none

def strings? (value : Value) : Option (List Text) := value.items?.bind fun vs => vs.mapM string?

/-- A choice by name: a string, or a tag in front of a value. -/
def choice? : Value → Option (Text × Option Value)
  | .string name => some (name, none)
  | .tagged tag value => some (tag, some value)
  | _ => none

/-- One of several names that stand alone; behind a tag only null may follow. -/
def named? {α : Type} (ofName? : Text → Option α) (value : Value) : Option α :=
  match value.choice? with
  | some (name, none) => ofName? name
  | some (name, some .null) => ofName? name
  | _ => none

def align? : Value → Option Align := named? Align.ofName?

def display? : Value → Option Display := named? Display.ofName?

def decoration? : Value → Option Decoration := named? Decoration.ofName?

/-- A width: `full`, or the tag `columns` in front of a count. -/
def width? (value : Value) : Option Width :=
  match value.choice? with
  | some (name, none) => if name = "full".toList then some .full else none
  | some (name, some inner) =>
    if name = "full".toList then
      match inner with
      | .null => some .full
      | _ => none
    else if name = "columns".toList then inner.count?.map Width.columns
    else none
  | none => none

/-- An optional field: null is unset. -/
def optional? {α : Type} (read : Value → Option α) : Value → Option (Option α)
  | .null => some none
  | value => (read value).map some

/-- Set the attribute that a key names; other keys are passed over. -/
def setAttribute (a : Attributes) (key : Text) (value : Value) : Option Attributes :=
  if key = "color".toList then (optional? string? value).map fun v => { a with color := v }
  else if key = "bg".toList then (optional? string? value).map fun v => { a with background := v }
  else if key = "decorations".toList then
    (value.items?.bind fun vs => vs.mapM decoration?).map fun ds =>
      { a with decorations := .ofList ds }
  else if key = "padding_left".toList then
    (optional? count? value).map fun v => { a with paddingLeft := v }
  else if key = "padding_right".toList then
    (optional? count? value).map fun v => { a with paddingRight := v }
  else if key = "margin_left".toList then
    (optional? count? value).map fun v => { a with marginLeft := v }
  else if key = "margin_right".toList then
    (optional? count? value).map fun v => { a with marginRight := v }
  else if key = "width".toList then (optional? width? value).map fun v => { a with width := v }
  else if key = "text_align".toList then
    (optional? align? value).map fun v => { a with align := v }
  else if key = "display".toList then
    (optional? display? value).map fun v => { a with display := v }
  else some a

/-- Read entries one after the other; `seen` are the fields written so far. Keys that differ
in their tags may name one field, which may be written once only. -/
def setAttributes (seen : List Text) (a : Attributes) : Entries → Option Attributes
  | [] => some a
  | (key, value) :: rest => do
    let field ← key.string?
    if seen.contains field then none
    else
      let a ← setAttribute a field value
      setAttributes (if Attributes.fields.contains field then field :: seen else seen) a rest

/-- Style attributes from a mapping with string keys; null sets none of them. -/
def attributes? (value : Value) : Option Attributes :=
  match value.untagged with
  | .null => some {}
  | .mapping entries => setAttributes [] {} entries
  | _ => none

end StyledText.Yaml.Value

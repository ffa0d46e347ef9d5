import StyledText.Yaml.Value
import StyledText.Style.Attributes

/-!
# Themes

A theme is a tree of variables, addressed by dotted paths. Reading a path looks through
tags at every table on the way. Writing a path makes tables where none stand, except that
a tagged table on the way keeps what it holds and the write is lost. Merging overlays one
theme on another, table by table.
-/
namespace StyledText

open Yaml

structure Theme where
  name : Option Text := none
  /-- The file that the theme was read from. -/
  sourcePath : Option Text := none
  entries : Entries := []
  deriving Inhabited

namespace Theme

/-- The segments of a dotted path; there is at least one. -/
def segments (path : Text) : List Text := Text.splitAt '.' path

/-- The value that a path of segments leads to. -/
def find? : List Text → Entries → Option Value
  | [], _ => none
  | [last], entries => entries.lookup last
  | segment :: rest, entries =>
    (entries.lookup segment).bind fun value => value.entries?.bind fun inner => find? rest inner

/-- Entries with a value written at a path of segments. -/
def write (value : Value) : List Text → Entries → Entries
  | [], entries => entries
  | [last], entries => entries.put (.string last) value
  | segment :: rest, entries =>
    let below : Value :=
      match entries.lookup segment with
      | some (.mapping inner) => .mapping (write value rest inner)
      | some other =>
        if other.entries?.isSome then other else .mapping (write value rest [])
      | none => .mapping (write value rest [])
    entries.put (.string segment) below

/-- The value at a path. -/
def get? (t : Theme) (path : Text) : Option Value := find? (segments path) t.entries

def contains (t : Theme) (path : Text) : Bool := (t.get? path).isSome

/-- Write a value at a path. -/
def set (t : Theme) (path : Text) (value : Value) : Theme :=
  { t with entries := write value (segments path) t.entries }

def isEmpty (t : Theme) : Bool := t.entries.isEmpty

/-- `other` over the theme: its variables win, and its name and source where it has them. -/
def merge (t other : Theme) : Theme where
  name := other.name <|> t.name
  sourcePath := other.sourcePath <|> t.sourcePath
  entries := Entries.merge t.entries other.entries

/-- Equality of names, sources and variables, the order of entries aside. -/
def same (t other : Theme) : Bool :=
  t.name = other.name && t.sourcePath = other.sourcePath &&
    (Value.mapping t.entries).same (.mapping other.entries)

/-- The value at a path as `read` takes it, or the fallback when there is none or it does not
fit. -/
def getOr {α : Type} (t : Theme) (read : Value → Option α) (path : Text) (fallback : α) : α :=
  ((t.get? path).bind read).getD fallback

/-- A string, number or boolean as text. -/
def scalarText? : Value → Option Text
  | .string s => some s
  | .number n => some n.text
  | .bool b => some (if b then "true" else "false")
  | _ => none

def getText? (t : Theme) (path : Text) : Option Text := (t.get? path).bind scalarText?

/-- A number, or a string that spells one. -/
def scalarNumber? : Value → Option Float
  | .number n => some n.toFloat
  | .string s => Decimal.read? (Text.trim s)
  | _ => none

def getNumber? (t : Theme) (path : Text) : Option Float := (t.get? path).bind scalarNumber?

/-- The color that a name stands for in the table of colors; a name without an entry stands
for itself. -/
def resolveColor (t : Theme) (name : Text) : Text :=
  (t.getText? ("colors.".toList ++ name)).getD name

/-- Style attributes with both colors resolved. -/
def resolveColors (t : Theme) (a : Style.Attributes) : Style.Attributes :=
  a.mapColors t.resolveColor

end Theme
end StyledText

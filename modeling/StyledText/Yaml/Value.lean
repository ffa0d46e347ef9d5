import StyledText.Number.Number

/-!
# Values of a document

A mapping is a list of entries with distinct keys in the order of their first insertion.
Two mappings are equal when they hold equal values under equal keys, in any order.
-/
namespace StyledText.Yaml

inductive Value where
  | null
  | bool (b : Bool)
  | number (n : Number)
  | string (t : Text)
  | sequence (items : List Value)
  | mapping (entries : List (Value × Value))
  | tagged (tag : Text) (value : Value)
  deriving Repr, Inhabited

/-- The entries of a mapping. -/
abbrev Entries := List (Value × Value)

namespace Value

mutual

/-- Equality of values. -/
def same : Value → Value → Bool
  | .null, .null => true
  | .bool a, .bool b => a = b
  | .number m, .number n => m.same n
  | .string s, .string t => s = t
  | .sequence xs, .sequence ys => sameItems xs ys
  | .mapping xs, .mapping ys => xs.length = ys.length && sameEntries xs ys
  | .tagged s x, .tagged t y => s = t && same x y
  | _, _ => false
termination_by structural v => v

def sameItems : List Value → List Value → Bool
  | [], [] => true
  | x :: xs, y :: ys => same x y && sameItems xs ys
  | _, _ => false
termination_by structural items => items

/-- Every entry has its equal among those of the other mapping. -/
def sameEntries : Entries → Entries → Bool
  | [], _ => true
  | entry :: rest, other => sameEntry entry other && sameEntries rest other
termination_by structural entries => entries

def sameEntry : Value × Value → Entries → Bool
  | (key, value), other =>
    match other.find? fun e => same key e.1 with
    | some e => same value e.2
    | none => false
termination_by structural entry => entry

end

/-- The value under its tags. -/
def untagged : Value → Value
  | .tagged _ value => untagged value
  | value => value

/-- The entries of a mapping, tags looked through. -/
def entries? (value : Value) : Option Entries :=
  match value.untagged with
  | .mapping entries => some entries
  | _ => none

/-- What a value is, in words. -/
def kind : Value → Text
  | .null => "null"
  | .bool _ => "a boolean"
  | .number _ => "a number"
  | .string _ => "a string"
  | .sequence _ => "a sequence"
  | .mapping _ => "a mapping"
  | .tagged _ _ => "a tagged value"

end Value

namespace Entries

/-- The value under an equal key. -/
def get? (key : Value) (entries : Entries) : Option Value :=
  (entries.find? fun entry => key.same entry.1).map Prod.snd

/-- The value under a string key. -/
def lookup (name : Text) (entries : Entries) : Option Value := get? (.string name) entries

/-- Put a value under a key: in place of the one under an equal key, else at the end. -/
def put (key value : Value) : Entries → Entries
  | [] => [(key, value)]
  | (k, v) :: rest => if key.same k then (k, value) :: rest else (k, v) :: put key value rest

mutual

/-- Overlay entries on others in turn. -/
def merge (base : Entries) : Entries → Entries
  | [] => base
  | entry :: rest => merge (mergeEntry base entry) rest
termination_by structural entries => entries

def mergeEntry (base : Entries) : Value × Value → Entries
  | (key, value) => put key (mergeValue (get? key base) value) base
termination_by structural entry => entry

/-- A mapping over a mapping is merged with it; any other value replaces what was there. -/
def mergeValue (below : Option Value) : Value → Value
  | .mapping upper =>
    match below with
    | some (.mapping lower) => .mapping (merge lower upper)
    | _ => .mapping upper
  | value => value
termination_by structural value => value

end

end Entries
end StyledText.Yaml

import StyledText.Number.Number

/-!
# What a plain scalar denotes

A plain scalar is null, a boolean, an integer or a double when it is spelled as one of
them, and a string otherwise. Integers have a sign and a radix mark `0x`, `0o` or `0b`;
leading zeros make a string of a number.
-/
namespace StyledText.Yaml.Schema

/-- A spelling of null; an empty plain scalar is null as well. -/
def isNull (t : Text) : Bool :=
  t == "null".toList || t == "Null".toList || t == "NULL".toList || t == "~".toList

def bool? (t : Text) : Option Bool :=
  if t = "true".toList ∨ t = "True".toList ∨ t = "TRUE".toList then some true
  else if t = "false".toList ∨ t = "False".toList ∨ t = "FALSE".toList then some false
  else none

/-- Several digits that begin with zero. -/
def hasLeadingZero (t : Text) : Bool :=
  let digits := match t with
    | '-' :: rest => rest
    | '+' :: rest => rest
    | _ => t
  digits.length > 1 && digits.head? == some '0' && digits.all Char.isDigit

/-- The radix marks. -/
def radixMarks : List (Text × Nat) := [("0x", 16), ("0o", 8), ("0b", 2)]

/-- Digits behind a radix mark. -/
def marked? (limit : Nat) (t : Text) : Option Nat :=
  radixMarks.findSome? fun (mark, radix) =>
    (Text.stripStart? mark t).bind fun digits => (Digits.read? radix digits).filter (· ≤ limit)

/-- An integer without a minus sign. -/
def natural? (limit : Nat) (t : Text) : Option Nat :=
  let digits := match t with
    | '+' :: rest => rest
    | _ => t
  match marked? limit digits with
  | some n => some n
  | none =>
    if hasLeadingZero t then none else (Digits.read? 10 digits).filter (· ≤ limit)

/-- The magnitude of an integer with a minus sign. -/
def negative? (limit : Nat) : Text → Option Nat
  | '-' :: digits =>
    match marked? limit digits with
    | some n => some n
    | none =>
      if hasLeadingZero digits then none else (Digits.read? 10 digits).filter (· ≤ limit)
  | _ => none

/-- What an integer spelling denotes. -/
inductive Integer where
  | value (i : Int)
  /-- Too large for 64 bits, though not for 128. -/
  | tooLarge
  deriving DecidableEq, Repr

def integer? (t : Text) : Option Integer :=
  match natural? Digits.maxWord t, negative? (Nat.pow 2 63) t with
  | some n, _ => some (.value n)
  | none, some n => some (.value (-(n : Int)))
  | none, none =>
    if (natural? (Nat.pow 2 128 - 1) t).isSome || (negative? (Nat.pow 2 127) t).isSome then some .tooLarge
    else none

/-- A double; of the spellings without digits those that begin with a point. -/
def float? (t : Text) : Option Float :=
  let magnitude : Option Text := match t with
    | '+' :: '+' :: _ => none
    | '+' :: '-' :: _ => none
    | '+' :: rest => some rest
    | _ => some t
  magnitude.bind fun m =>
    if m = ".inf".toList ∨ m = ".Inf".toList ∨ m = ".INF".toList then some Decimal.infinity
    else if t = "-.inf".toList ∨ t = "-.Inf".toList ∨ t = "-.INF".toList then
      some (-Decimal.infinity)
    else if t = ".nan".toList ∨ t = ".NaN".toList ∨ t = ".NAN".toList then some Decimal.nan
    else (Decimal.read? m).filter Float.isFinite

end StyledText.Yaml.Schema

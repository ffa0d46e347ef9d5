import StyledText.Number.Digits

/-!
# Decimal numbers read as floating point

The grammar is an optional sign, then `inf`, `infinity` or `nan` in any case, or digits
with an optional point and an optional exponent, at least one digit among those around the
point. The result is the double nearest to the decimal.
-/
namespace StyledText.Decimal

def infinity : Float := Float.ofBits 0x7FF0000000000000

def nan : Float := Float.ofBits 0x7FF8000000000000

/-- The double nearest to `m · 10 ^ e`. Beyond 310 places before or 330 after the point the
result is infinite or zero, so the power is never built. -/
def toFloat (m : Nat) (e : Int) : Float :=
  if m = 0 then 0.0
  else
    let place : Int := (Nat.toDigits 10 m).length + e
    if place > 310 then infinity
    else if place < -330 then 0.0
    else Float.ofScientific m (e < 0) e.natAbs

/-- The exponent after its letter; none written is zero. -/
def exponent? : Text → Option Int
  | [] => some 0
  | c :: rest =>
    if c = 'e' ∨ c = 'E' then
      match rest with
      | '-' :: digits => (Digits.read? 10 digits).map fun n => -(n : Int)
      | '+' :: digits => (Digits.read? 10 digits).map Int.ofNat
      | digits => (Digits.read? 10 digits).map Int.ofNat
    else none

/-- Digits with an optional point and exponent. -/
def magnitude? (t : Text) : Option Float :=
  let whole := t.takeWhile Char.isDigit
  let afterWhole := t.dropWhile Char.isDigit
  let (fraction, rest) := match afterWhole with
    | '.' :: more => (more.takeWhile Char.isDigit, more.dropWhile Char.isDigit)
    | more => ([], more)
  if whole = [] ∧ fraction = [] then none
  else (exponent? rest).map fun e =>
    toFloat (Digits.toNat 10 (whole ++ fraction)) (e - (fraction.length : Int))

/-- A magnitude or one of the words for the values that have no digits. -/
def unsigned? (t : Text) : Option Float :=
  let word := Text.asciiLower t
  if word = "inf".toList ∨ word = "infinity".toList then some infinity
  else if word = "nan".toList then some nan
  else magnitude? t

/-- The floating-point number that a text spells. -/
def read? : Text → Option Float
  | '-' :: rest => (unsigned? rest).map fun x => -x
  | '+' :: rest => unsigned? rest
  | t => unsigned? t

end StyledText.Decimal

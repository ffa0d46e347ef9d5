import StyledText.Number.Decimal
import StyledText.Number.Shortest

/-!
# Numbers of a document

A number is an integer or a double. Doubles are compared as numbers, except that all NaNs
are one, and are written with the fewest digits that read back: positional while the point
lies within 16 digits or up to 5 places before them, with a point always shown, and with an
exponent otherwise.
-/
namespace StyledText

inductive Number where
  | integer (i : Int)
  | float (x : Float)
  deriving Repr, Inhabited

namespace Number

/-- The bits without the sign. -/
def magnitudeBits (bits : UInt64) : Nat := bits.toNat % Nat.pow 2 63

/-- The magnitude bits of infinity; larger ones are NaN. -/
def infinityBits : Nat := 0x7FF0000000000000

def isNegative (bits : UInt64) : Bool := bits.toNat ≥ Nat.pow 2 63

/-- The bits denote the same number, or both denote none. -/
def sameBits (a b : UInt64) : Bool :=
  a = b || (magnitudeBits a = 0 && magnitudeBits b = 0) ||
    (magnitudeBits a > infinityBits && magnitudeBits b > infinityBits)

/-- Equality of numbers; an integer differs from every double. -/
def same : Number → Number → Bool
  | .integer i, .integer j => i = j
  | .float x, .float y => sameBits x.toBits y.toBits
  | _, _ => false

/-- Digits and a power of ten, written out. -/
def decimalText (d : Shortest.Decimal) : Text :=
  let digits := Text.ofNat d.digits
  let size : Int := digits.length
  let place := size + d.exponent
  if 0 ≤ d.exponent ∧ place ≤ 16 then
    digits ++ List.replicate d.exponent.toNat '0' ++ ".0".toList
  else if 0 < place ∧ place ≤ 16 then
    digits.take place.toNat ++ '.' :: digits.drop place.toNat
  else if -5 < place ∧ place ≤ 0 then
    "0.".toList ++ List.replicate (-place).toNat '0' ++ digits
  else
    let fraction := if digits.length = 1 then [] else '.' :: digits.drop 1
    digits.take 1 ++ fraction ++ 'e' :: Text.ofInt (place - 1)

/-- The magnitude that the bits hold, without its sign. -/
def magnitudeText (bits : UInt64) : Text :=
  if magnitudeBits bits = infinityBits then ".inf"
  else if magnitudeBits bits = 0 then "0.0"
  else decimalText (Shortest.ofBinary (Shortest.Binary.ofBits bits))

def bitsText (bits : UInt64) : Text :=
  if magnitudeBits bits > infinityBits then ".nan"
  else if isNegative bits then '-' :: magnitudeText bits
  else magnitudeText bits

/-- The number as text. -/
def text : Number → Text
  | .integer i => Text.ofInt i
  | .float x => bitsText x.toBits

def toFloat : Number → Float
  | .integer i => if i < 0 then -(Float.ofNat i.natAbs) else Float.ofNat i.natAbs
  | .float x => x

end Number
end StyledText

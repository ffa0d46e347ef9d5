import StyledText.Text.Basic

/-!
# Digits in a radix

Whole numbers are read from a nonempty run of digits with an optional sign, and only when
they fit the range the reader asks for.
-/
namespace StyledText.Digits

/-- The value of a digit; letters continue after 9 in either case. -/
def value (c : Char) : Nat :=
  if '0' ≤ c ∧ c ≤ '9' then c.toNat - '0'.toNat
  else if 'a' ≤ c ∧ c ≤ 'z' then c.toNat - 'a'.toNat + 10
  else if 'A' ≤ c ∧ c ≤ 'Z' then c.toNat - 'A'.toNat + 10
  else 36

def isDigit (radix : Nat) (c : Char) : Bool := value c < radix

/-- The number that digits spell, most significant first. -/
def toNat (radix : Nat) (t : Text) : Nat := t.foldl (fun n c => n * radix + value c) 0

/-- A nonempty run of digits and nothing else. -/
def read? (radix : Nat) (t : Text) : Option Nat :=
  if t ≠ [] ∧ t.all (isDigit radix) then some (toNat radix t) else none

/-- Digits after an optional plus sign, at most `limit`. -/
def unsigned? (radix limit : Nat) (t : Text) : Option Nat :=
  let digits := match t with
    | '+' :: rest => rest
    | _ => t
  (read? radix digits).filter (· ≤ limit)

/-- Digits after an optional sign, between `low` and `high`. -/
def signed? (radix : Nat) (low high : Int) (t : Text) : Option Int :=
  let number : Option Int := match t with
    | '-' :: rest => (read? radix rest).map fun n => -(n : Int)
    | '+' :: rest => (read? radix rest).map Int.ofNat
    | _ => (read? radix t).map Int.ofNat
  number.filter fun i => low ≤ i ∧ i ≤ high

/-- The largest number of 64 bits. -/
def maxWord : Nat := Nat.pow 2 64 - 1

/-- The largest signed number of 64 bits. -/
def maxSigned : Int := Nat.pow 2 63 - 1

/-- The smallest signed number of 64 bits. -/
def minSigned : Int := -Nat.pow 2 63

/-- A count of columns: decimal digits that fit 64 bits. -/
def columns? (t : Text) : Option Nat := unsigned? 10 maxWord t

end StyledText.Digits

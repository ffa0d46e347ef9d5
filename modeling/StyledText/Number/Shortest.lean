import StyledText.Text.Basic

/-!
# Shortest decimal of a double

A finite double is `m · 2 ^ q`. The reals that round to it form an interval, closed exactly
when `m` is even. Among decimals of 1, 2, …, 17 digits the first grid with a point in the
interval is taken, and on it the point nearest to the double; an exact tie goes to the even
digit. All arithmetic is on natural numbers.
-/
namespace StyledText.Shortest

/-- A positive double as `mantissa · 2 ^ exponent`, and whether the gap below it is half the
gap above, which is so at a power of two. -/
structure Binary where
  mantissa : Nat
  exponent : Int
  narrow : Bool
  deriving DecidableEq, Repr

/-- The decimal `digits · 10 ^ exponent`. -/
structure Decimal where
  digits : Nat
  exponent : Int
  deriving DecidableEq, Repr

/-- The magnitude held in the bits of a finite double. -/
def Binary.ofBits (bits : UInt64) : Binary :=
  let field : Nat := (bits.toNat / Nat.pow 2 52) % Nat.pow 2 11
  let fraction : Nat := bits.toNat % Nat.pow 2 52
  if field = 0 then ⟨fraction, -1074, false⟩
  else ⟨Nat.pow 2 52 + fraction, (field : Int) - 1075, fraction = 0 && field > 1⟩

/-- Bounds of the rounding interval and the value between them, as multiples of a quarter of
the unit `2 ^ exponent`. -/
def Binary.quarters (b : Binary) : Nat × Nat × Nat :=
  (4 * b.mantissa - (if b.narrow then 1 else 2), 4 * b.mantissa, 4 * b.mantissa + 2)

/-- A power with a signed exponent as numerator and denominator. -/
def power (base : Nat) (e : Int) : Nat × Nat :=
  if e < 0 then (1, base.pow e.natAbs) else (base.pow e.natAbs, 1)

/-- The least `k` with `value < 10 ^ k`, for a positive value given as a fraction. -/
def place (numerator denominator : Nat) : Int :=
  if denominator ≤ numerator then (Nat.toDigits 10 (numerator / denominator)).length
  else
    let inverse := (denominator + numerator - 1) / numerator
    1 - ((Nat.toDigits 10 (inverse - 1)).length : Int)

/-- The point of the grid of step `10 ^ s` that stands for the value, if one lies in its
rounding interval. -/
def onGrid? (b : Binary) (s : Int) : Option Nat :=
  let (low, value, high) := b.quarters
  let (up, down) := power 2 (b.exponent - 2)
  let (stepUp, stepDown) := power 10 s
  let scale := up * stepDown
  let unit := down * stepUp
  let below := value * scale / unit
  let inside (c : Nat) : Bool :=
    if b.mantissa % 2 = 0 then low * scale ≤ c * unit && c * unit ≤ high * scale
    else low * scale < c * unit && c * unit < high * scale
  let toBelow := value * scale - below * unit
  let toAbove := (below + 1) * unit - value * scale
  match inside below, inside (below + 1) with
  | true, false => some below
  | false, true => some (below + 1)
  | true, true =>
    if toBelow < toAbove then some below
    else if toAbove < toBelow then some (below + 1)
    else if below % 2 = 0 then some below else some (below + 1)
  | false, false => none

/-- Try grids of `n`, `n + 1`, … digits, `remaining` of them. -/
def search (b : Binary) (k : Int) (n : Nat) : (remaining : Nat) → Decimal
  | 0 => ⟨0, 0⟩
  | remaining + 1 =>
    match onGrid? b (k - n) with
    | some digits => ⟨digits, k - n⟩
    | none => search b k (n + 1) remaining

/-- Move factors of ten from the digits to the exponent; a number of at most 18 digits has
fewer than 18 of them. -/
def Decimal.normalize (d : Decimal) : (remaining : Nat) → Decimal
  | 0 => d
  | remaining + 1 =>
    if d.digits ≠ 0 ∧ d.digits % 10 = 0 then
      Decimal.normalize ⟨d.digits / 10, d.exponent + 1⟩ remaining
    else d

/-- The shortest decimal that reads back as the given positive double. -/
def ofBinary (b : Binary) : Decimal :=
  let (_, value, _) := b.quarters
  let (up, down) := power 2 (b.exponent - 2)
  (search b (place (value * up) down) 1 17).normalize 18

end StyledText.Shortest

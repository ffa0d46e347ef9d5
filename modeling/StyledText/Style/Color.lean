import StyledText.Number.Digits

/-!
# Colors

A color is written as `#` with 3 or 6 hexadecimal digits, as a palette index up to 255, or
as one of eight base names, `gray`, `grey`, or a base name with `bright_` in front.
-/
namespace StyledText.Style

inductive BaseColor where
  | black | red | green | yellow | blue | magenta | cyan | white
  deriving DecidableEq, Repr

namespace BaseColor

/-- Names in the order of their indices. -/
def table : List (Text × BaseColor) :=
  [("black", black), ("red", red), ("green", green), ("yellow", yellow), ("blue", blue),
    ("magenta", magenta), ("cyan", cyan), ("white", white)]

def ofName? (name : Text) : Option BaseColor := table.lookup name

def index : BaseColor → Nat
  | black => 0
  | red => 1
  | green => 2
  | yellow => 3
  | blue => 4
  | magenta => 5
  | cyan => 6
  | white => 7

end BaseColor

inductive Color where
  | named (base : BaseColor)
  | bright (base : BaseColor)
  | palette (index : UInt8)
  | rgb (red green blue : UInt8)
  deriving DecidableEq, Repr

inductive ColorError where
  | unknownName (name : Text)
  /-- The digits behind `#`. -/
  | invalidHex (digits : Text)
  | outOfRange (index : Nat)
  /-- An index that no 64-bit number holds. -/
  | invalidValue (digits : Text)
  deriving DecidableEq, Repr

def ColorError.message : ColorError → Text
  | .unknownName name => "unknown color name: ".toList ++ name
  | .invalidHex digits =>
    "invalid hex color: #".toList ++ digits ++ " (must be 3 or 6 hex digits)".toList
  | .outOfRange index =>
    "color palette index ".toList ++ Text.ofNat index ++ " out of range (0-255)".toList
  | .invalidValue digits => "invalid color value: ".toList ++ digits

namespace Color

/-- One byte in hexadecimal, with an optional plus sign in place of the first digit. -/
def byte? (digits : Text) : Option UInt8 := (Digits.unsigned? 16 255 digits).map UInt8.ofNat

/-- One hexadecimal digit, doubled. -/
def doubledDigit? (digit : Char) : Option UInt8 :=
  (Digits.unsigned? 16 15 [digit]).map fun n => UInt8.ofNat (n * 17)

/-- The color of the digits behind `#`. -/
def ofHex (digits : Text) : Except ColorError Color :=
  let color := match digits with
    | [r, g, b] => do pure (rgb (← doubledDigit? r) (← doubledDigit? g) (← doubledDigit? b))
    | [r, r', g, g', b, b'] => do
      pure (rgb (← byte? [r, r']) (← byte? [g, g']) (← byte? [b, b']))
    | _ => none
  match color with
  | some c => .ok c
  | none => .error (.invalidHex digits)

/-- The color of a run of decimal digits. -/
def ofIndex (digits : Text) : Except ColorError Color :=
  let index := Digits.toNat 10 digits
  if index > Digits.maxWord then .error (.invalidValue digits)
  else if index > 255 then .error (.outOfRange index)
  else .ok (palette (UInt8.ofNat index))

/-- Lower case as far as a name can tell. Of the characters beyond ASCII only KELVIN SIGN has
an ASCII letter alone for its lower case; any other keeps the text from being a name. -/
def lowerChar (c : Char) : Char := if c = '\u212a' then 'k' else c.toLower

/-- The color of a name in any case. -/
def ofName (name : Text) : Except ColorError Color :=
  let lower := name.map lowerChar
  let color := match Text.stripStart? "bright_" lower with
    | some base => (BaseColor.ofName? base).map bright
    | none =>
      if lower = "gray".toList ∨ lower = "grey".toList then some (bright .black)
      else (BaseColor.ofName? lower).map named
  match color with
  | some c => .ok c
  | none => .error (.unknownName name)

/-- The color that a text denotes, blanks around it ignored. -/
def parse (t : Text) : Except ColorError Color :=
  match Text.trim t with
  | '#' :: digits => ofHex digits
  | [] => ofName []
  | name => if name.all Char.isDigit then ofIndex name else ofName name

/-- Parameters that select the color, from the first code of each kind. -/
def parameters (base bright extended : Nat) : Color → Text
  | .named c => Text.ofNat (base + c.index)
  | .bright c => Text.ofNat (bright + c.index)
  | .palette n => Text.ofNat extended ++ ";5;".toList ++ Text.ofNat n.toNat
  | .rgb r g b =>
    Text.ofNat extended ++ ";2;".toList ++ Text.ofNat r.toNat ++ ";".toList ++
      Text.ofNat g.toNat ++ ";".toList ++ Text.ofNat b.toNat

def foreground : Color → Text := parameters 30 90 38

def background : Color → Text := parameters 40 100 48

/-- The kind of color, as the command to inspect one shows it. -/
def kind : Color → Text
  | .named _ => "named"
  | .bright _ => "bright"
  | .palette _ => "palette"
  | .rgb _ _ _ => "rgb"

end Color
end StyledText.Style

import StyledText.Number.Decimal

/-!
# Tag parameters

What follows a tag name holds one unnamed value and any number of named ones. A leading
`=` gives the unnamed value; otherwise the first bare word fills it, and every later bare
word is a name without a value. A value is quoted, or runs to the next blank; an open quote
runs to the end. Named parameters form an ordered map: a name keeps the place where it was
first written and the value written last.
-/
namespace StyledText.Markup

structure Parameters where
  unnamed : Option Text := none
  named : List (Text × Text) := []
  deriving DecidableEq, Repr, Inhabited

/-- A quoted value or a run up to a blank, and what is left. -/
def takeValue : Text → Text × Text
  | [] => ([], [])
  | c :: cs =>
    if c = '"' ∨ c = '\'' then
      (cs.takeWhile (· != c), (cs.dropWhile (· != c)).drop 1)
    else
      ((c :: cs).takeWhile (!Text.isBlank ·), (c :: cs).dropWhile (!Text.isBlank ·))

theorem length_dropWhile_le (p : Char → Bool) (t : Text) : (t.dropWhile p).length ≤ t.length :=
  (List.dropWhile_suffix p).length_le

theorem length_takeValue_le (t : Text) : (takeValue t).2.length ≤ t.length := by
  cases t with
  | nil => exact Nat.le_refl _
  | cons c cs =>
    have := length_dropWhile_le (· != c) cs
    simp only [takeValue]
    split
    · simp only [List.length_drop, List.length_cons]
      omega
    · exact length_dropWhile_le _ _

theorem length_takeValue_lt_of_quote {c : Char} (h : c = '"' ∨ c = '\'') (cs : Text) :
    (takeValue (c :: cs)).2.length < (c :: cs).length := by
  have := length_dropWhile_le (· != c) cs
  simp only [takeValue, if_pos h, List.length_drop, List.length_cons]
  omega

namespace Parameters

/-- Write a value under a key: in place when the key is there, else at the end. -/
def put (key value : Text) : List (Text × Text) → List (Text × Text)
  | [] => [(key, value)]
  | (k, v) :: rest => if k = key then (k, value) :: rest else (k, v) :: put key value rest

def insert (p : Parameters) (key value : Text) : Parameters :=
  { p with named := put key value p.named }

def setUnnamed (p : Parameters) (value : Text) : Parameters := { p with unnamed := some value }

/-- A word without a key: the unnamed value if there is none yet, else a key. -/
def pushBare (p : Parameters) (word : Text) : Parameters :=
  if p.unnamed.isNone then p.setUnnamed word else p.insert word []

def get? (p : Parameters) (key : Text) : Option Text :=
  (p.named.find? fun entry => entry.1 = key).map Prod.snd

def contains (p : Parameters) (key : Text) : Bool := (p.get? key).isSome

def size (p : Parameters) : Nat := p.named.length

def isEmpty (p : Parameters) : Bool := p.named.isEmpty && p.unnamed.isNone

def isWordChar (c : Char) : Bool := c != '=' && !Text.isBlank c

/-- Read one parameter from a text that starts with the character `c`, which is no blank. -/
def step (p : Parameters) (c : Char) (cs : Text) : Parameters × Text :=
  if c = '"' ∨ c = '\'' then
    (p.pushBare (takeValue (c :: cs)).1, (takeValue (c :: cs)).2)
  else if c = '=' then
    let (value, rest) := takeValue cs
    (if value = [] then p else p.pushBare value, rest)
  else
    let word := c :: cs.takeWhile isWordChar
    match cs.dropWhile isWordChar with
    | '=' :: more => (p.insert word (takeValue more).1, (takeValue more).2)
    | rest => (p.pushBare word, rest)

theorem length_step_lt (p : Parameters) (c : Char) (cs : Text) :
    (p.step c cs).2.length < (c :: cs).length := by
  simp only [step]
  split
  · exact length_takeValue_lt_of_quote ‹_› cs
  · split
    · exact Nat.lt_succ_of_le (length_takeValue_le cs)
    · have rest := length_dropWhile_le isWordChar cs
      split
      · rename_i more h
        have := length_takeValue_le more
        simp only [h, List.length_cons] at rest ⊢
        omega
      · simp only [List.length_cons]
        omega

/-- Read the parameters of a text into those already read. -/
def absorb (p : Parameters) (t : Text) : Parameters :=
  match _h : Text.trimStart t with
  | [] => p
  | c :: cs => absorb (p.step c cs).1 (p.step c cs).2
termination_by t.length
decreasing_by
  have trimmed := length_dropWhile_le Text.isBlank t
  have read := length_step_lt p c cs
  rw [Text.trimStart] at _h
  rw [_h] at trimmed
  omega

def parse (t : Text) : Parameters :=
  match t with
  | '=' :: rest => absorb { unnamed := some (takeValue rest).1 } (takeValue rest).2
  | _ => absorb {} t

/-- The number that a value spells when it is finite and positive, else zero. -/
def number (t : Text) : Float :=
  match Decimal.read? (Text.trim t) with
  | some x => if x.isFinite && x > 0.0 then x else 0.0
  | none => 0.0

def number? (p : Parameters) (key : Text) : Option Float := (p.get? key).map number

def unnamedNumber? (p : Parameters) : Option Float := p.unnamed.map number

end Parameters
end StyledText.Markup

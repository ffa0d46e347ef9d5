import Mathlib.Data.List.Basic
import StyledText.Proofs.Style.Drawing
import StyledText.Proofs.Text.Splitting

/-!
# A terminal

What a terminal has turned on: a foreground, a background, decorations and a link. It reads the
sequences of its input one by one, and passes over those that it does not know.
-/
namespace StyledText.Terminal

open Style

structure State where
  /-- The codes that selected the color. -/
  foreground : Option (List ℕ) := none
  background : Option (List ℕ) := none
  decorations : Decorations := .empty
  link : Option Text := none
  deriving DecidableEq

/-! ### Reading sequences -/

/-- The codes between `ESC [` and `m`. Where no digits stand the code is 0. -/
def codes? : Text → Option (List ℕ)
  | '\x1b' :: '[' :: rest =>
    match Text.stripEnd? ['m'] rest with
    | some parameters =>
      if parameters.all fun c => c.isDigit || c = ';' then
        some ((Text.splitAt ';' parameters).map fun digits => Nat.ofDigitChars 10 digits 0)
      else none
    | none => none
  | _ => none

/-- The address of a link command, which stands behind the second `;`. -/
def address? : Text → Option Text
  | '\x1b' :: ']' :: '8' :: ';' :: rest =>
    match Text.stripEnd? [Escape.esc, '\\'] rest <|> Text.stripEnd? [Escape.bel] rest with
    | some command => (command.dropWhile fun c => c ≠ ';').tail?
    | none => none
  | _ => none

/-- All is turned off. -/
def IsReset (sequence : Text) : Prop := codes? sequence = some [0]

namespace State

def turnOn (s : State) (d : Decoration) : State :=
  { s with decorations := s.decorations.insert d }

def turnOff (s : State) (ds : List Decoration) : State :=
  { s with decorations := ⟨fun d => s.decorations.contains d && !ds.contains d⟩ }

/-- A code that stands for itself. -/
def single (s : State) : ℕ → State
  | 0 => { link := s.link }
  | 1 => s.turnOn .bold
  | 2 => s.turnOn .dim
  | 3 => s.turnOn .italic
  | 4 => s.turnOn .underline
  | 5 => s.turnOn .blink
  | 7 => s.turnOn .reverse
  | 8 => s.turnOn .invisible
  | 9 => s.turnOn .strikethrough
  | 22 => s.turnOff [.bold, .dim]
  | 23 => s.turnOff [.italic]
  | 24 => s.turnOff [.underline]
  | 25 => s.turnOff [.blink]
  | 27 => s.turnOff [.reverse]
  | 28 => s.turnOff [.invisible]
  | 29 => s.turnOff [.strikethrough]
  | 39 => { s with foreground := none }
  | 49 => { s with background := none }
  | code =>
    if 30 ≤ code ∧ code ≤ 37 ∨ 90 ≤ code ∧ code ≤ 97 then { s with foreground := some [code] }
    else if 40 ≤ code ∧ code ≤ 47 ∨ 100 ≤ code ∧ code ≤ 107 then
      { s with background := some [code] }
    else s

def select (s : State) : List ℕ → State
  | [] => s
  | 38 :: 5 :: n :: rest => { s with foreground := some [38, 5, n] }.select rest
  | 48 :: 5 :: n :: rest => { s with background := some [48, 5, n] }.select rest
  | 38 :: 2 :: r :: g :: b :: rest => { s with foreground := some [38, 2, r, g, b] }.select rest
  | 48 :: 2 :: r :: g :: b :: rest => { s with background := some [48, 2, r, g, b] }.select rest
  | code :: rest => (s.single code).select rest

def step (s : State) (sequence : Text) : State :=
  match codes? sequence, address? sequence with
  | some codes, _ => s.select codes
  | none, some [] => { s with link := none }
  | none, some address => { s with link := some address }
  | none, none => s

end State

/-- The state behind a text. -/
def run (s : State) (t : Text) : State := (Escape.sequences t).foldl State.step s

theorem run_append (s : State) {t : Text} (h : Escape.Whole t) (u : Text) :
    run s (t ++ u) = run (run s t) u := by
  simp [run, Escape.sequences_append h]

theorem run_of_notMem (s : State) {t : Text} (h : Escape.esc ∉ t) : run s t = s := by
  simp [run, Escape.sequences_of_notMem h]

theorem run_between (s : State) {on off : Text} (h : Switch on off) (t : Text) :
    run s (on ++ t ++ off) = (run (s.step on) t).step off := by
  rw [run, h.sequences_between]
  simp [run]

/-! ### Reading what is written -/

theorem codes?_sgr {codes : List ℕ} (nonempty : codes ≠ []) :
    codes? (Escape.sgr (Text.join [';'] (codes.map Text.ofNat))) = some codes := by
  have digits : ∀ t ∈ codes.map Text.ofNat, ∀ c ∈ t, c.isDigit := by
    intro t mem c inside
    obtain ⟨n, -, rfl⟩ := List.mem_map.1 mem
    exact isDigit_of_mem_ofNat inside
  have parameters : (Text.join [';'] (codes.map Text.ofNat)).all fun c => c.isDigit || c = ';' := by
    rw [List.all_eq_true]
    intro c mem
    rcases Text.mem_join mem with separator | ⟨t, inside, mem⟩
    · simp [List.mem_singleton.1 separator]
    · simp [digits t inside c mem]
  have separate : ∀ t ∈ codes.map Text.ofNat, ';' ∉ t := fun t mem inside =>
    absurd (digits t mem ';' inside) (by decide)
  have pieces := Text.splitAt_join (by simpa using nonempty) separate
  have back : ((fun t => Nat.ofDigitChars 10 t 0) ∘ Text.ofNat) = id :=
    funext fun n => Nat.ofDigitChars_ten_toDigits
  simp [codes?, Escape.sgr, Escape.esc, Text.stripEnd?_append, parameters, pieces, List.map_map,
    back]

theorem address?_linkCommand (address : Text) :
    address? (Escape.linkCommand address) = some address := by
  have command := Text.stripEnd?_append (';' :: address) [Escape.esc, '\\']
  rw [List.cons_append, Escape.esc] at command
  simp [address?, Escape.linkCommand, Escape.esc, command]

theorem codes?_linkCommand (address : Text) : codes? (Escape.linkCommand address) = none := rfl

theorem State.step_sgr (s : State) {codes : List ℕ} (nonempty : codes ≠ []) :
    s.step (Escape.sgr (Text.join [';'] (codes.map Text.ofNat))) = s.select codes := by
  simp [step, codes?_sgr nonempty]

example : State.step {} "\x1b[1;38;5;7m".toList =
    { foreground := some [38, 5, 7], decorations := .ofList [.bold] } := by decide

theorem State.step_linkCommand (s : State) (address : Text) :
    s.step (Escape.linkCommand address) =
      { s with link := if address = [] then none else some address } := by
  cases address <;> simp [step, codes?_linkCommand, address?_linkCommand]

end StyledText.Terminal

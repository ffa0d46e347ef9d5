import StyledText.Output.Printer
import StyledText.Theme.Builtin
import StyledText.Number.Digits

/-!
# Sessions

A session holds the current theme and the way the terminal's width is found: a fixed answer, or
the environment, where an attached terminal comes before `COLUMNS`. Where no positive width is
found it is 80.
-/
namespace StyledText

/-- The positive width that a text spells, blanks around it ignored. -/
def columnsOf? (text : Option Text) : Option Nat :=
  (text.bind fun t => Digits.columns? (Text.trim t)).filter (· > 0)

/-- How the width of the terminal is found. -/
inductive WidthDetector where
  /-- By the environment. -/
  | environment
  /-- Always the same answer, which may be none. -/
  | fixed (width : Option Nat)
  deriving DecidableEq, Repr, Inhabited

structure Session where
  theme : Theme := Theme.builtin
  detector : WidthDetector := .environment
  /-- The columns of the attached terminal. -/
  attached : Option Nat := none
  /-- The environment's `COLUMNS`. -/
  columns : Option Text := none
  /-- The terminal shows color. -/
  showsColor : Bool := false
  deriving Inhabited

namespace Session

/-- The width of the terminal. -/
def width (s : Session) : Nat :=
  let found := match s.detector with
    | .environment => (s.attached.filter (· > 0)).or (columnsOf? s.columns)
    | .fixed width => width.filter (· > 0)
  found.getD defaultWidth

def setTheme (s : Session) (theme : Theme) : Session := { s with theme := theme }

def resetTheme (s : Session) : Session := s.setTheme Theme.builtin

/-- The context of the current theme and the built-in tags. -/
def context (s : Session) : Context where
  shortcodes := { theme := s.theme }
  detectedWidth := s.width

/-- A printer in that context. -/
def printer (s : Session) : Printer := { context := s.context, showsColor := s.showsColor }

end Session
end StyledText

import StyledText.Escape.Sequence

/-!
# Output modes

Styled output is written as it is or without its escape sequences. The automatic mode asks the
terminal: it keeps them where the terminal shows color. An output that is no terminal shows none.
-/
namespace StyledText

inductive OutputMode where
  | auto | term | text
  deriving DecidableEq, Repr, Inhabited

/-- No output mode has this name. -/
structure OutputModeError where
  text : Text
  deriving DecidableEq, Repr

def OutputModeError.message (e : OutputModeError) : Text :=
  "unknown output mode '".toList ++ e.text ++ "' (expected auto, term or text)".toList

namespace OutputMode

def name : OutputMode → Text
  | auto => "auto"
  | term => "term"
  | text => "text"

/-- The name as a description shows it. -/
def title : OutputMode → Text
  | auto => "Auto"
  | term => "Term"
  | text => "Text"

/-- The mode with a name, blanks around it and the case of its letters ignored. -/
def parse (t : Text) : Except OutputModeError OutputMode :=
  match [auto, term, text].find? fun mode => mode.name = Text.asciiLower (Text.trim t) with
  | some mode => .ok mode
  | none => .error ⟨t⟩

/-- Escape sequences are kept, given whether the terminal shows color. -/
def keepsStyle (mode : OutputMode) (showsColor : Bool := false) : Bool :=
  match mode with
  | auto => showsColor
  | term => true
  | text => false

/-- What is written of rendered text. -/
def apply (mode : OutputMode) (rendered : Text) (showsColor : Bool := false) : Text :=
  if mode.keepsStyle showsColor then rendered else Escape.strip rendered

end OutputMode
end StyledText

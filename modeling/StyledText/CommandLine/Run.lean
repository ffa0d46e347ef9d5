import StyledText.CommandLine.Arguments
import StyledText.CommandLine.Help
import StyledText.Markup.Strip
import StyledText.Session
import StyledText.Theme.Source

/-!
# Running a command

A command line that is understood is run against a session, the files it names and the
text on standard input. The outcome is what is written and the status to end with: zero for
success and help, two for a command line that is not understood, one for any failure.
-/
namespace StyledText.CommandLine

/-- Why a command cannot be run to its end. -/
inductive Failure where
  | theme (path : Text) (cause : ThemeError)
  /-- The text on standard input is no text. -/
  | input (cause : FileError)
  deriving DecidableEq, Repr

namespace Failure

def message : Failure → Text
  | theme path _ => "loading theme ".toList ++ path
  | input _ => "reading stdin"

def cause : Failure → Text
  | theme _ cause => cause.message
  | input cause => cause.message

/-- The report on the error stream. -/
def report (f : Failure) : Text :=
  "Error: ".toList ++ f.message ++ "\n\nCaused by:\n    ".toList ++ f.cause ++ ['\n']

end Failure

/-- What a run writes and how it ends. -/
structure Outcome where
  status : Nat := 0
  output : Text := []
  errors : Text := []
  deriving DecidableEq, Repr, Inhabited

namespace Outcome

/-- The first line of what is written to the error stream. -/
def firstError (o : Outcome) : Text := o.errors.takeWhile (· != '\n')

def ofFailure (f : Failure) : Outcome := { status := 1, errors := f.report }

def ofStop : Stop → Outcome
  | .usage =>
    { status := 2
      errors := "error: invalid arguments\n\nFor more information, try '--help'.\n" }
  | .help topic => { output := topic.text }
  | .version => { output := CommandLine.version }

end Outcome

/-- A text without the line feeds at its end. -/
def chomp (t : Text) : Text := Text.dropEndWhile (· == '\n') t

/-- What a run can take from outside. -/
structure Surroundings where
  session : Session := {}
  /-- The bytes of a file. -/
  file : Text → Except FileError (List UInt8) := fun _ => .error .notFound
  /-- The bytes of standard input. -/
  input : List UInt8 := []

namespace Surroundings

/-- The text given, or else that of standard input. -/
def text (s : Surroundings) : Option Text → Except Failure Text
  | some text => .ok text
  | none =>
    match Text.ofUtf8? s.input with
    | some text => .ok text
    | none => .error (.input .invalidText)

end Surroundings

namespace Command

/-- The element that a command prints, if it prints one. -/
def element? : Command → Option Element
  | alert text kind boxWidth full right =>
    some (.alert
      { value := text, kind, width := boxWidth, full := if full then some true else none,
        align := if right then some .right else none })
  | heading text size =>
    let heading : Heading := { value := text }
    some (.heading ((size.map heading.withSize).getD heading))
  | rule label character right =>
    some (.rule
      { label := label.getD [], character, align := if right then some .right else none })
  | render _ => none
  | strip _ => none

/-- What a command writes through a printer. -/
def written (c : Command) (s : Surroundings) (p : Printer) : Except Failure Text :=
  match c with
  | render text =>
    (s.text text).map fun text => p.renderText (chomp text) ++ ['\n']
  | strip text =>
    (s.text text).map fun text => p.apply (Markup.strip (chomp text) ++ ['\n'])
  | command => .ok ((command.element?.map p.render).getD [])

/-- The command may take its text from standard input. -/
def readsInput : Command → Bool
  | render none | strip none => true
  | _ => false

end Command

namespace Request

/-- The session with the theme that the request names laid over the built-in one. -/
def session (q : Request) (s : Surroundings) : Except Failure Session :=
  match q.theme with
  | none => .ok s.session
  | some path =>
    match Theme.ofFile s.file path with
    | .ok theme => .ok (s.session.setTheme (Theme.builtin.merge theme))
    | .error cause => .error (.theme path cause)

/-- The printer that the request asks for. -/
def printer (q : Request) (session : Session) : Printer :=
  let p := session.printer.setMode q.output
  (q.width.map p.setWidth).getD p

/-- What the request writes. -/
def written (q : Request) (s : Surroundings) : Except Failure Text :=
  (q.session s).bind fun session => q.command.written s (q.printer session)

end Request

/-- The outcome of a command line. -/
def run (words : List Text) (s : Surroundings) : Outcome :=
  match parse words with
  | .error stop => .ofStop stop
  | .ok request =>
    match request.written s with
    | .ok output => { output }
    | .error failure => .ofFailure failure

end StyledText.CommandLine

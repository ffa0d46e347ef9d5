import StyledText.Element.Alert
import StyledText.Output.Mode

/-!
# Commands and their options

Some options belong to the program and can be written before or behind the name of a
command; others belong to one command. An option that holds one value, or none, is written
at most once on each side of that name.
-/
namespace StyledText.CommandLine

inductive CommandName where
  | render | strip | alert | heading | rule
  deriving DecidableEq, Repr

namespace CommandName

def all : List CommandName := [render, strip, alert, heading, rule]

def word : CommandName → Text
  | render => "render"
  | strip => "strip"
  | alert => "alert"
  | heading => "heading"
  | rule => "rule"

def ofWord? (word : Text) : Option CommandName := all.find? fun c => c.word = word

/-- The command's text has to be given. -/
def needsText : CommandName → Bool
  | alert | heading => true
  | render | strip | rule => false

end CommandName

/-- What a help text is about. -/
inductive Topic where
  | program
  | command (name : CommandName)
  | help
  deriving DecidableEq, Repr

/-- Why a command line names nothing to run. -/
inductive Stop where
  | usage
  | help (topic : Topic)
  | version
  deriving DecidableEq, Repr

inductive OptionName where
  | theme | width | output | verbose | help | version
  | kind | boxWidth | full | right | size | character
  deriving DecidableEq, Repr

namespace OptionName

def long : OptionName → Text
  | theme => "theme"
  | width => "width"
  | output => "output"
  | verbose => "verbose"
  | help => "help"
  | version => "version"
  | kind => "kind"
  | boxWidth => "box-width"
  | full => "full"
  | right => "right"
  | size => "size"
  | character => "character"

def short? : OptionName → Option Char
  | verbose => some 'v'
  | help => some 'h'
  | version => some 'V'
  | boxWidth => some 'w'
  | size => some 's'
  | _ => none

def takesValue : OptionName → Bool
  | theme | width | output | kind | boxWidth | size | character => true
  | verbose | help | version | full | right => false

/-- Options that can be written anywhere. -/
def everywhere : List OptionName := [theme, width, output, verbose, help]

/-- Options that can be written behind a command's name, or before any. -/
def available : Option CommandName → List OptionName
  | none => everywhere ++ [version]
  | some .render | some .strip => everywhere
  | some .alert => everywhere ++ [kind, boxWidth, full, right]
  | some .heading => everywhere ++ [size]
  | some .rule => everywhere ++ [character, right]

def ofLong? (command : Option CommandName) (name : Text) : Option OptionName :=
  (available command).find? fun o => o.long = name

def ofShort? (command : Option CommandName) (letter : Char) : Option OptionName :=
  (available command).find? fun o => o.short? = some letter

end OptionName

/-- Options written on one side of a command's name. -/
structure Options where
  theme : Option Text := none
  width : Option Nat := none
  output : Option OutputMode := none
  kind : Option AlertKind := none
  boxWidth : Option Nat := none
  full : Bool := false
  right : Bool := false
  size : Option Nat := none
  character : Option Char := none
  deriving DecidableEq, Repr, Inhabited

/-- A heading size: an integer from 0 to 255. -/
def size? (value : Text) : Option Nat :=
  ((Digits.signed? 10 Digits.minSigned Digits.maxSigned value).filter fun i => 0 ≤ i ∧ i ≤ 255).map
    Int.toNat

/-- The only character of a text. -/
def character? : Text → Option Char
  | [c] => some c
  | _ => none

/-- Fill a field that is empty with a value that can be read. -/
def once {α : Type} (field value : Option α) (fill : Option α → Options) : Except Stop Options :=
  match field, value with
  | none, some v => .ok (fill (some v))
  | _, _ => .error .usage

/-- Record an option with its value, which is empty for an option without one. -/
def Options.record (s : Options) (name : OptionName) (value : Text) : Except Stop Options :=
  match name with
  | .theme =>
    once s.theme (if value = [] then none else some value) fun v => { s with theme := v }
  | .width => once s.width (Digits.columns? value) fun v => { s with width := v }
  | .output => once s.output (OutputMode.parse value).toOption fun v => { s with output := v }
  | .kind => once s.kind (AlertKind.parse value).toOption fun v => { s with kind := v }
  | .boxWidth => once s.boxWidth (Digits.columns? value) fun v => { s with boxWidth := v }
  | .size => once s.size (size? value) fun v => { s with size := v }
  | .character => once s.character (character? value) fun v => { s with character := v }
  | .full => if s.full then .error .usage else .ok { s with full := true }
  | .right => if s.right then .error .usage else .ok { s with right := true }
  | .verbose | .help | .version => .ok s

/-- Options behind a command's name over those before it. -/
def Options.overlay (behind before : Options) : Options :=
  { behind with
    theme := behind.theme <|> before.theme
    width := behind.width <|> before.width
    output := behind.output <|> before.output }

end StyledText.CommandLine

import StyledText.CommandLine.Options

/-!
# Reading a command line

Words are read from left to right and the first that settles the outcome wins: a request
for help or for the version, or a mistake. The value of an option is written behind `=`, or
behind a short option's letter, or as the next word unless that word is itself an option.
It is checked when the next word is taken that is not the name of a command, and at the
latest at the end.
-/
namespace StyledText.CommandLine

/-- A word of the command line by its form. -/
inductive Word where
  /-- Two hyphens: only plain words follow. -/
  | separator
  | long (name : Text) (value : Option Text)
  | short (letters : Text)
  | plain (text : Text)
  deriving DecidableEq, Repr

/-- The form of a word. A lone hyphen is a plain word. -/
def Word.read : Text → Word
  | ['-', '-'] => .separator
  | '-' :: '-' :: rest =>
    match rest.dropWhile (· != '=') with
    | _ :: value => .long (rest.takeWhile (· != '=')) (some value)
    | [] => .long rest none
  | '-' :: c :: letters => .short (c :: letters)
  | text => .plain text

/-- Words read so far on one side of a command's name. -/
structure Reader where
  options : Options := {}
  /-- An option whose value has not been checked, or not even been read. -/
  pending : Option (OptionName × Option Text) := none
  text : Option Text := none
  deriving DecidableEq, Repr, Inhabited

namespace Reader

/-- Check the pending option. -/
def settle (r : Reader) : Except Stop Reader :=
  match r.pending with
  | none => .ok r
  | some (_, none) => .error .usage
  | some (name, some value) =>
    (r.options.record name value).map fun options => { r with options, pending := none }

/-- The option that waits for its value. -/
def awaiting? (r : Reader) : Option OptionName :=
  match r.pending with
  | some (name, none) => some name
  | _ => none

/-- Record an option whose value, if it takes one, is at hand. -/
def record (r : Reader) (name : OptionName) (value : Text) : Except Stop Reader := do
  let r ← r.settle
  let options ← r.options.record name value
  pure { r with options }

/-- Take an option without value. -/
def flag (command : Option CommandName) (r : Reader) (name : OptionName) : Except Stop Reader := do
  let r ← r.record name []
  match name with
  | .help => throw (.help (match command with
    | none => .program
    | some name => .command name))
  | .version => throw .version
  | _ => pure r

/-- Wait for the value of an option. -/
def await (r : Reader) (name : OptionName) : Except Stop Reader := do
  let r ← r.settle
  pure { r with pending := some (name, none) }

/-- Take an option by its long name. -/
def long (command : Option CommandName) (r : Reader) (name : Text) (value : Option Text) :
    Except Stop Reader :=
  match OptionName.ofLong? command name, value with
  | none, _ => .error .usage
  | some o, some value => if o.takesValue then r.record o value else .error .usage
  | some o, none => if o.takesValue then r.await o else r.flag command o

/-- Take options by their letters. The first that takes a value takes what follows it. -/
def short (command : Option CommandName) (r : Reader) : Text → Except Stop Reader
  | [] => .ok r
  | letter :: rest =>
    match OptionName.ofShort? command letter with
    | none => .error .usage
    | some o =>
      if o.takesValue then
        match rest with
        | [] => r.await o
        | '=' :: value => r.record o value
        | value => r.record o value
      else (r.flag command o).bind fun r => short command r rest

/-- Take the text that a command is about. -/
def plain (r : Reader) (text : Text) : Except Stop Reader := do
  let r ← r.settle
  if r.text.isSome then throw .usage
  pure { r with text := some text }

/-- Take the words behind a separator. -/
def plainAll (r : Reader) : List Text → Except Stop Reader
  | [] => r.settle
  | word :: words => (r.plain word).bind fun r => r.plainAll words

/-- Take the words behind a command's name. -/
def behind (command : CommandName) (r : Reader) : List Text → Except Stop Reader
  | [] => r.settle
  | word :: words =>
    match Word.read word, r.awaiting? with
    | .plain value, some name => behind command { r with pending := some (name, some value) } words
    | .plain text, none => (r.plain text).bind fun r => behind command r words
    | .separator, _ => r.plainAll words
    | .long name value, _ =>
      (r.long (some command) name value).bind fun r => behind command r words
    | .short letters, _ => (r.short (some command) letters).bind fun r => behind command r words

end Reader

/-- What a command does. -/
inductive Command where
  | render (text : Option Text)
  | strip (text : Option Text)
  | alert (text : Text) (kind : AlertKind) (boxWidth : Option Nat) (full right : Bool)
  | heading (text : Text) (size : Option Nat)
  | rule (label : Option Text) (character : Option Char) (right : Bool)
  deriving DecidableEq, Repr, Inhabited

/-- A command line that can be run. -/
structure Request where
  theme : Option Text := none
  width : Option Nat := none
  output : OutputMode := .auto
  command : Command
  deriving DecidableEq, Repr, Inhabited

/-- The command of a name with its options and text. A box is not given a width and the full
width at once. -/
def Command.make (name : CommandName) (o : Options) (text : Option Text) : Except Stop Command :=
  match name, text with
  | .render, text => .ok (.render text)
  | .strip, text => .ok (.strip text)
  | .alert, some text =>
    if o.full && o.boxWidth.isSome then .error .usage
    else .ok (.alert text (o.kind.getD .info) o.boxWidth o.full o.right)
  | .heading, some text => .ok (.heading text o.size)
  | .rule, label => .ok (.rule label o.character o.right)
  | .alert, none => .error .usage
  | .heading, none => .error .usage

/-- The topic of the words behind the command `help`. -/
def topicOf : List Text → Except Stop Topic
  | [] => .ok .program
  | [word] =>
    if word = "help".toList then .ok .help
    else match CommandName.ofWord? word with
      | some name => .ok (.command name)
      | none => .error .usage
  | _ => .error .usage

/-- Read the words behind the name of a command, then check what came before it. -/
def readCommand (before : Reader) (name : CommandName) (words : List Text) :
    Except Stop Request := do
  let behind ← Reader.behind name {} words
  let command ← Command.make name behind.options behind.text
  let before ← before.settle
  let options := behind.options.overlay before.options
  pure
    { theme := options.theme, width := options.width, output := options.output.getD .auto,
      command }

/-- Read words up to the name of a command and then that command. -/
def readProgram (r : Reader) : List Text → Except Stop Request
  | [] => .error .usage
  | word :: words =>
    match Word.read word, r.awaiting? with
    | .plain value, some name => readProgram { r with pending := some (name, some value) } words
    | .plain text, none =>
      if text = "help".toList then (topicOf words).bind fun topic => .error (.help topic)
      else match CommandName.ofWord? text with
        | some name => readCommand r name words
        | none => .error .usage
    | .separator, _ => .error .usage
    | .long name value, _ => (r.long none name value).bind fun r => readProgram r words
    | .short letters, _ => (r.short none letters).bind fun r => readProgram r words

/-- What a command line asks for. -/
def parse (words : List Text) : Except Stop Request := readProgram {} words

end StyledText.CommandLine

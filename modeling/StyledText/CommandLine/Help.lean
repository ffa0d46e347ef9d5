import StyledText.CommandLine.Options

/-!
# Help texts

A help text says what a command is for, how it is written, and what its text and options
mean. Options are listed in the order of their declaration, those of a command before those
of the program at the same place; meanings stand in one column.
-/
namespace StyledText.CommandLine

/-- The program's name. -/
def program : Text := "termage"

/-- The program's version. -/
def version : Text := program ++ " 0.1.0\n".toList

namespace CommandName

def summary : CommandName → Text
  | render => "Expand shortcodes in TEXT (or stdin)"
  | strip => "Remove shortcode markup from TEXT (or stdin)"
  | alert => "Print TEXT in an alert box"
  | heading => "Print TEXT as a heading"
  | rule => "Print a horizontal rule"

/-- The text that a command is about, in angles when it has to be given. -/
def textPlace : CommandName → Text
  | render | strip => "[TEXT]"
  | alert | heading => "<TEXT>"
  | rule => "[LABEL]"

end CommandName

namespace OptionName

/-- What a value is called, or an ellipsis for an option that counts. -/
def place : OptionName → Text
  | theme => " <FILE>"
  | width => " <N>"
  | output => " <OUTPUT>"
  | kind => " <KIND>"
  | boxWidth => " <BOX_WIDTH>"
  | size => " <SIZE>"
  | character => " <CHARACTER>"
  | verbose => "..."
  | help | version | full | right => ""

def meaning : OptionName → Text
  | theme => "YAML theme merged over the built-in one"
  | width => "Layout width in columns (default: terminal width)"
  | output => "auto, term or text [default: auto]"
  | verbose => "More logging on stderr (-v debug, -vv trace); RUST_LOG overrides"
  | help => "Print help"
  | version => "Print version"
  | kind => "[default: info]"
  | boxWidth => "Box width in columns"
  | full => "Box as wide as the terminal"
  | right => ""
  | size => "1 (largest) to 5 (default: the theme's heading.size)"
  | character => "Line character"

/-- The options of a topic in the order of their listing. -/
def listed : Topic → List OptionName
  | .program => [theme, width, output, verbose, help, version]
  | .command .render | .command .strip => [theme, width, output, verbose, help]
  | .command .alert => [kind, theme, boxWidth, width, full, output, right, verbose, help]
  | .command .heading => [size, theme, width, output, verbose, help]
  | .command .rule => [character, theme, right, width, output, verbose, help]
  | .help => []

/-- An option as it is written. -/
def form (o : OptionName) : Text :=
  (match o.short? with
    | some letter => ['-', letter, ',', ' ']
    | none => Text.spaces 4) ++ "--".toList ++ o.long ++ o.place

end OptionName

/-- A titled list of forms and their meanings, the meanings in one column. -/
def listing (title : Text) (rows : List (Text × Text)) : Text :=
  let column := (rows.map fun row => row.1.length).foldl max 0 + 2
  if rows = [] then []
  else '\n' :: title ++ ":\n".toList ++ rows.flatMap fun (form, meaning) =>
    Text.spaces 2 ++ form ++ Text.spaces (column - form.length) ++ meaning ++ ['\n']

namespace Topic

def summary : Topic → Text
  | program => "Styled terminal output from shortcodes"
  | command name => name.summary
  | help => "Print this message or the help of the given subcommand(s)"

/-- What is written behind the program's name. -/
def usage : Topic → Text
  | program => "[OPTIONS] <COMMAND>"
  | command name => name.word ++ " [OPTIONS] ".toList ++ name.textPlace
  | help => "help [COMMAND]..."

def commands : Topic → List (Text × Text)
  | program => CommandName.all.map (fun name => (name.word, name.summary)) ++
      [("help".toList, help.summary)]
  | command _ | help => []

def arguments : Topic → List (Text × Text)
  | program => []
  | command name => [(name.textPlace, [])]
  | help => [("[COMMAND]...", "Print help for the subcommand(s)")]

/-- The help text of a topic. -/
def text (t : Topic) : Text :=
  t.summary ++ "\n\nUsage: ".toList ++ CommandLine.program ++ ' ' :: t.usage ++ ['\n'] ++
    listing "Commands" t.commands ++ listing "Arguments" t.arguments ++
    listing "Options" ((OptionName.listed t).map fun o => (o.form, o.meaning))

end Topic
end StyledText.CommandLine

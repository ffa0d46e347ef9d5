import StyledText.Theme.Basic
import StyledText.Yaml.Document
import StyledText.Files

/-!
# Themes from documents and files

A document gives a theme when it is a mapping or null. A theme read from a file is named
after it and keeps its path.
-/
namespace StyledText

open Yaml

inductive ThemeError where
  | load (path : Text) (cause : FileError)
  /-- The document cannot be read. -/
  | parse (path : Option Text) (fault : Fault)
  | notAMapping (path : Option Text) (found : Text)
  deriving DecidableEq, Repr

namespace ThemeError

/-- A path in a message, with a space before it. -/
def location (path : Option Text) : Text := (path.map fun p => ' ' :: p).getD []

def message : ThemeError → Text
  | .load path cause =>
    "failed to read theme ".toList ++ path ++ ": ".toList ++ cause.message
  | .parse path _ => "failed to parse theme".toList ++ location path
  | .notAMapping path found =>
    "theme".toList ++ location path ++ " must be a mapping of variables, found ".toList ++ found

end ThemeError

namespace Theme

/-- The variables that a document holds. -/
def entriesOf (path : Option Text) (document : Text) : Except ThemeError Entries :=
  match Value.parse document with
  | .error fault => .error (.parse path fault)
  | .ok (.mapping entries) => .ok entries
  | .ok .null => .ok []
  | .ok value => .error (.notAMapping path value.kind)

/-- The theme that a document holds. -/
def ofDocument (document : Text) : Except ThemeError Theme :=
  (entriesOf none document).map fun entries => { entries }

/-- The theme in the bytes of a file. -/
def ofBytes (path : Text) (bytes : List UInt8) : Except ThemeError Theme :=
  match Text.ofUtf8? bytes with
  | none => .error (.load path .invalidText)
  | some document =>
    (entriesOf (some path) document).map fun entries =>
      { name := (Path.fileName? path).map Path.stem, sourcePath := some path, entries }

/-- The theme in a file. -/
def ofFile (read : Text → Except FileError (List UInt8)) (path : Text) :
    Except ThemeError Theme :=
  match read path with
  | .error cause => .error (.load path cause)
  | .ok bytes => ofBytes path bytes

end Theme
end StyledText

import StyledText.Text.Basic

/-!
# A tree of files

Files are named by paths relative to one directory, and a directory is there when a file
lies below it. A path is walked name by name: whatever is not the last name has to lead to
a directory, a single point stays there and a double point leaves it.
-/
namespace StyledText

/-- Why a file cannot be used. -/
inductive FileError where
  | notFound
  | notADirectory
  | isADirectory
  | nameTooLong
  /-- The path holds a null character. -/
  | nullInPath
  | parentMissing (parent : Text)
  /-- The bytes are no text. -/
  | invalidText
  deriving DecidableEq, Repr

namespace FileError

def message : FileError → Text
  | .notFound => "No such file or directory (os error 2)"
  | .notADirectory => "Not a directory (os error 20)"
  | .isADirectory => "Is a directory (os error 21)"
  | .nameTooLong => "File name too long (os error 36)"
  | .nullInPath => "file name contained an unexpected NUL byte"
  | .parentMissing parent => "parent directory does not exist: ".toList ++ parent
  | .invalidText => "stream did not contain valid UTF-8"

/-- The kind of error. -/
def kind : FileError → Text
  | .notFound => "NotFound"
  | .notADirectory => "NotADirectory"
  | .isADirectory => "IsADirectory"
  | .nameTooLong => "InvalidFilename"
  | .nullInPath => "InvalidInput"
  | .parentMissing _ => "NotFound"
  | .invalidText => "InvalidData"

end FileError

namespace Path

/-- The names between the slashes of a path. -/
def names (path : Text) : List Text := (Text.splitAt '/' path).filter (· ≠ [])

/-- A slash at the end asks for a directory. -/
def asksForDirectory (path : Text) : Bool := path.getLast? = some '/'

/-- Names without single points. -/
def components (path : Text) : List Text := (names path).filter (· ≠ ['.'])

/-- Components with double points carried out. -/
def resolve (path : Text) : List Text :=
  ((components path).foldl
    (fun done c => if c = ['.', '.'] then done.drop 1 else c :: done) []).reverse

/-- The last component, if it names something. -/
def fileName? (path : Text) : Option Text :=
  match (components path).getLast? with
  | some name => if name = ['.', '.'] then none else some name
  | none => none

/-- A file name without what follows its last point, unless nothing stands before it. -/
def stem (name : Text) : Text :=
  match (Text.splitAt '.' name).dropLast with
  | [] => name
  | before =>
    let text := Text.join ['.'] before
    if text = [] then name else text

/-- Pieces between slashes without those at the end that name nothing. -/
def trimPieces (pieces : List Text) : List Text :=
  (pieces.reverse.dropWhile fun p => p = [] ∨ p = ['.']).reverse

/-- The path without its last component; none for the empty path and the topmost
directory. What the path begins with counts, even if it is a single point. -/
def parent? (path : Text) : Option Text :=
  match Text.splitAt '/' path with
  | [] => none
  | first :: rest =>
    match trimPieces rest with
    | [] => if first = [] then none else some []
    | named =>
      match trimPieces named.dropLast with
      | [] => some (if first = [] then ['/'] else first)
      | above => some (Text.join ['/'] (first :: above))

end Path

/-- Where a walk along a path stands. -/
inductive Place where
  /-- A directory of the tree. -/
  | directory (components : List Text)
  | file (bytes : List UInt8)
  /-- A directory that holds the tree or stands beside it; nothing is known to lie there. -/
  | outside
  /-- Nothing lies there, in a directory that does. -/
  | vacant
  deriving DecidableEq, Repr

/-- Files by the components of their paths. -/
structure Files where
  entries : List (List Text × List UInt8) := []
  deriving Inhabited

namespace Files

def put (files : Files) (path : Text) (bytes : List UInt8) : Files :=
  let components := Path.resolve path
  ⟨(components, bytes) :: files.entries.filter fun entry => entry.1 ≠ components⟩

def isDirectory (files : Files) (components : List Text) : Bool :=
  components = [] || files.entries.any fun (path, _) =>
    components.length < path.length && path.take components.length = components

/-- What lies at a place of the tree. -/
def look (files : Files) (components : List Text) : Place :=
  match files.entries.lookup components with
  | some bytes => .file bytes
  | none => if files.isDirectory components then .directory components else .vacant

/-- Follow one name, of at most 255 bytes. -/
def step (files : Files) : Place → Text → Except FileError Place
  | .file _, _ => .error .notADirectory
  | .vacant, _ => .error .notFound
  | .directory above, name =>
    if name = ['.'] then .ok (.directory above)
    else if name = ['.', '.'] then
      .ok (if above = [] then .outside else .directory above.dropLast)
    else if Text.utf8Size name > 255 then .error .nameTooLong
    else .ok (files.look (above ++ [name]))
  | .outside, name =>
    if name = ['.'] ∨ name = ['.', '.'] then .ok .outside
    else if Text.utf8Size name > 255 then .error .nameTooLong
    else .ok .vacant

/-- Where a path of at most 4095 bytes begins. -/
def start (path : Text) : Except FileError Place :=
  if path.contains '\x00' then .error .nullInPath
  else if path = [] then .error .notFound
  else if Text.utf8Size path > 4095 then .error .nameTooLong
  else .ok (if path.head? = some '/' then .outside else .directory [])

/-- Walk a path to its end. -/
def walk (files : Files) (path : Text) : Except FileError Place := do
  let place ← (Path.names path).foldlM files.step (← start path)
  if Path.asksForDirectory path then files.step place ['.'] else pure place

/-- Something lies at a path. -/
def holds (files : Files) (path : Text) : Bool :=
  match files.walk path with
  | .ok .vacant => false
  | .ok _ => true
  | .error _ => false

/-- The bytes of a file. -/
def read (files : Files) (path : Text) : Except FileError (List UInt8) := do
  match ← files.walk path with
  | .file bytes => pure bytes
  | .vacant => throw .notFound
  | .directory _ => throw .isADirectory
  | .outside => throw .isADirectory

/-- Whether a file can be created at a path or written anew. -/
def creatable (files : Files) (path : Text) : Except FileError Unit := do
  match (Path.parent? path).filter fun parent => parent ≠ [] && !files.holds parent with
  | some parent => throw (.parentMissing parent)
  | none =>
    let names := Path.names path
    let place ← names.dropLast.foldlM files.step (← start path)
    let name := if Path.asksForDirectory path then ['.'] else names.getLastD ['.']
    match ← files.step place name with
    | .directory _ => throw .isADirectory
    | .outside => throw .isADirectory
    | .file _ => pure ()
    | .vacant => pure ()

end Files
end StyledText

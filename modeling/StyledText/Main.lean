import StyledText.CommandLine.Run

/-!
# The program

Reads what a command line asks for, runs it and writes the outcome.
-/
namespace StyledText

/-- Why a file could not be read. -/
def fileErrorOf (e : IO.Error) : FileError :=
  match e with
  | .inappropriateType _ _ _ => .isADirectory
  | _ => .notFound

/-- The bytes of a file, if a request names one. -/
def readFile (path : Option Text) : IO (Except FileError (List UInt8)) := do
  match path with
  | none => pure (.error .notFound)
  | some path =>
    try
      pure (.ok (← IO.FS.readBinFile (String.ofList path)).toList)
    catch e => pure (.error (fileErrorOf e))

/-- All that is left on a stream. -/
partial def readAll (stream : IO.FS.Stream) (read : ByteArray) : IO ByteArray := do
  let chunk ← stream.read 4096
  if chunk.isEmpty then pure read else readAll stream (read ++ chunk)

/-- What a command line needs from outside: the terminal, and the file and the text on standard
input that its request names. A terminal is taken to show color. -/
def surroundings (words : List Text) : IO CommandLine.Surroundings := do
  let columns := (← IO.getEnv "COLUMNS").map String.toList
  let showsColor ← (← IO.getStdout).isTty
  let session : Session := { columns, showsColor }
  match CommandLine.parse words with
  | .error _ => pure { session }
  | .ok request =>
    let file ← readFile request.theme
    let input ←
      if request.command.readsInput then readAll (← IO.getStdin) .empty else pure .empty
    pure { session, file := fun _ => file, input := input.toList }

/-- Run a command line, write what it writes and end with its status. -/
def runProgram (arguments : List String) : IO UInt32 := do
  let words := arguments.map String.toList
  let outcome := CommandLine.run words (← surroundings words)
  let output ← IO.getStdout
  output.putStr (String.ofList outcome.output)
  output.flush
  (← IO.getStderr).putStr (String.ofList outcome.errors)
  pure outcome.status.toUInt32

end StyledText

def main (arguments : List String) : IO UInt32 := StyledText.runProgram arguments

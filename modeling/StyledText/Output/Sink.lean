import StyledText.Text.Basic

/-!
# Sinks

A sink takes bytes until it is full. A write takes what still fits; it fails when something
is left over, and never when there is nothing to write.
-/
namespace StyledText

structure Sink where
  received : List UInt8 := []
  /-- The number of bytes it takes in all; none is no limit. -/
  limit : Option Nat := none
  deriving DecidableEq, Repr, Inhabited

/-- A sink took less than it was given. -/
inductive SinkError where
  | full
  deriving DecidableEq, Repr

def SinkError.message : SinkError → Text
  | .full => "sink full"

namespace Sink

/-- How many of `n` bytes still fit. -/
def room (s : Sink) (n : Nat) : Nat :=
  match s.limit with
  | none => n
  | some limit => min n (limit - s.received.length)

def write (s : Sink) (bytes : List UInt8) : Sink × Except SinkError Unit :=
  let fits := s.room bytes.length
  ({ s with received := s.received ++ bytes.take fits },
    if fits = bytes.length then .ok () else .error .full)

/-- Write pieces in turn, stopping at the first that does not fit. -/
def writeAll (s : Sink) : List (List UInt8) → Sink × Except SinkError Unit
  | [] => (s, .ok ())
  | piece :: pieces =>
    match s.write piece with
    | (s, .ok ()) => s.writeAll pieces
    | (s, .error e) => (s, .error e)

end Sink
end StyledText

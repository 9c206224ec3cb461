import SignalAccess.Failure.Basic
import SignalAccess.Text.Utf8
/-!
# Connections

A connection is what a session knows of its peer: the pieces that arrive, one at each read, and the
bytes that were written. A read can fail, and so can every write. Where no piece is left, the stream
has ended; an empty piece reads as its end, too.
-/
namespace SignalAccess

/-- What a read of a connection gives. -/
inductive Arrival where
  | piece (bytes : Bytes)
  | failure (code : Int32)
  deriving DecidableEq, Repr

/-- A connection as one end sees it. -/
structure Connection where
  /-- What is still to be read. -/
  arrivals : List Arrival
  written : Bytes
  /-- The failure that every write meets. -/
  writeFailure : Option Int32
  /-- Whether nothing will be written any more. -/
  isShut : Bool
  deriving DecidableEq, Repr

/-- The most bytes that one read takes. -/
def Arrival.maxPiece : Nat := 65536

/-- A long piece in the parts in which it is read. -/
def Arrival.parts (bytes : Bytes) : List Arrival :=
  if bytes.length ≤ maxPiece then [.piece bytes]
  else .piece (bytes.take maxPiece) :: parts (bytes.drop maxPiece)
termination_by bytes.length
decreasing_by
  simp [maxPiece] at *
  omega

namespace Connection

/-- A connection on which nothing has happened yet. -/
def opened (arrivals : List Arrival) (writeFailure : Option Int32) : Connection where
  arrivals := arrivals.flatMap fun
    | .piece bytes => Arrival.parts bytes
    | .failure code => [.failure code]
  written := []
  writeFailure := writeFailure
  isShut := false

/-- The connection with some bytes written behind those that were. They are written as a whole or not at
all; a real stream may take some of them before it fails. -/
def write (connection : Connection) (bytes : Bytes) : Except Failure Connection :=
  match connection.writeFailure with
  | some code => .error (.system (.numbered code))
  | none => .ok { connection with written := connection.written ++ bytes }

end Connection

end SignalAccess

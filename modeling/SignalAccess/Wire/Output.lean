import SignalAccess.Failure.Basic
import SignalAccess.Wire.Limit
import SignalAccess.Wire.Word
/-!
# Writing

What goes on the wire is written in pieces. A piece is its bytes, or the failure that keeps it from
being written: a text longer than its field, a count that no word holds. Pieces are joined in
order, and the first failure among them is that of the whole. A failure is reported against the
section of the exchange that the piece belongs to.
-/
namespace SignalAccess

/-- A piece of what goes on the wire, unless it cannot be written. -/
abbrev Encoding := Except Failure Bytes

namespace Encoding

/-- A piece that cannot be written. -/
def refuse (part : Section) (fault : ProtocolFault) : Encoding := .error (.protocol part fault)

/-- A piece that is written if nothing is wrong with what it stands for. -/
def checked (part : Section) (fault : Option ProtocolFault) (piece : Encoding) : Encoding :=
  match fault with
  | some fault => refuse part fault
  | none => piece

/-- Pieces one behind the other. -/
def joined : List Encoding → Encoding
  | [] => .ok []
  | piece :: pieces => do
    let front ← piece
    let back ← joined pieces
    return front ++ back

/-- A 32-bit integer. -/
def int32 (i : Int32) : Encoding := .ok (Word.int32 i)

/-- A 32-bit unsigned integer. -/
def uint32 (i : UInt32) : Encoding := .ok (Word.uint32 i)

/-- A 64-bit floating point number. -/
def float64 (x : Binary64) : Encoding := .ok (Word.float64 x)

/-- A truth value. -/
def truth (b : Bool) : Encoding := .ok (Word.truth b)

/-- A number of things that follow, as a 32-bit unsigned integer. -/
def count (part : Section) (n : Nat) : Encoding :=
  if n < UInt32.size then .ok (Word.uint32 (UInt32.ofNat n)) else refuse part (.countTooLarge n)

/-- Bytes behind their number. -/
def blob (part : Section) (bytes : Bytes) : Encoding := joined [count part bytes.length, .ok bytes]

/-- A text of at most `limit` bytes, behind the number of its bytes. -/
def text (part : Section) (limit : Nat) (t : Text) : Encoding :=
  if limit < t.byteLength then refuse part (.textTooLong t.byteLength limit)
  else blob part t.utf8

/-- Words behind their number. -/
def words (part : Section) (width : Nat) (row : List (BitVec (8 * width))) : Encoding :=
  joined [count part row.length, .ok (row.flatMap Word.bits)]

end Encoding

/-- What has been written so far, and the section that is being written. -/
structure Output where
  bytes : Bytes
  part : Section
  deriving DecidableEq, Repr

namespace Output

/-- Nothing is written yet. -/
def empty : Output := ⟨[], .state⟩

/-- The output with a piece behind it. -/
def write (output : Output) (piece : Section → Encoding) : Except Failure Output := do
  let bytes ← piece output.part
  return { output with bytes := output.bytes ++ bytes }

end Output

end SignalAccess

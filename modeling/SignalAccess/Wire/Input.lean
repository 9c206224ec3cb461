import SignalAccess.Failure.Basic
import SignalAccess.Wire.Limit
import SignalAccess.Wire.Word
/-!
# Reading

A decoder takes its bytes from the front of an input and leaves the rest. When the bytes are not
what they should be it fails against the section that is being read; what was taken up to then
stays taken. A whole block is read by a decoder that leaves nothing.
-/
namespace SignalAccess

/-- The bytes still to be read, and the section that they belong to. -/
structure Input where
  bytes : Bytes
  part : Section
  deriving DecidableEq, Repr

/-- Bytes of which nothing was read. -/
def Input.ofBytes (bytes : Bytes) : Input := ⟨bytes, .state⟩

/-- A way to read a value. -/
abbrev Decoder := EStateM Failure Input

namespace Decoder

variable {α : Type}

/-- Fails against the section that is being read. -/
def refuse (fault : ProtocolFault) : Decoder α := fun input =>
  .error (.protocol input.part fault) input

/-- Enters a section. -/
def enter (part : Section) : Decoder Unit := fun input => .ok () { input with part := part }

/-- Takes a number of bytes, which make up a part. -/
def take (what : WirePart) (needed : Nat) : Decoder Bytes := fun input =>
  if input.bytes.length < needed then
    .error (.protocol input.part (.truncated what needed input.bytes.length)) input
  else .ok (input.bytes.take needed) { input with bytes := input.bytes.drop needed }

/-- Bytes that stand in front are taken, and the rest stays. -/
theorem take_append (what : WirePart) (front back : Bytes) (part : Section) :
    take what front.length ⟨front ++ back, part⟩ = .ok front ⟨back, part⟩ := by
  simp [take]

/-- A 32-bit integer. -/
def int32 : Decoder Int32 := do return Word.toInt32 (← take .int32 4)

/-- A 32-bit unsigned integer. -/
def uint32 : Decoder UInt32 := do return Word.toUInt32 (← take .uint32 4)

/-- A 64-bit floating point number. -/
def float64 : Decoder Binary64 := do return Word.toFloat64 (← take .float64 8)

/-- A truth value: any 32-bit integer but zero is true. -/
def truth : Decoder Bool := do return (← int32) != 0

/-- The number of things that follow. -/
def count : Decoder Nat := do return (← uint32).toNat

/-- Bytes behind their number. -/
def blob : Decoder Bytes := do take .blob (← count)

/-- A text of at most `limit` bytes. -/
def text (limit : Nat) : Decoder Text := do
  let size ← count
  if limit < size then refuse (.textLengthTooLong size limit)
  else
    let bytes ← take .text size
    match Text.ofUtf8? bytes with
    | some t => return t
    | none => refuse .textNotUtf8

/-- The words of a run of bytes. -/
def row (width : Nat) : (length : Nat) → Bytes → List (BitVec (8 * width))
  | 0, _ => []
  | length + 1, bytes => Word.toBits width (bytes.take width) :: row width length (bytes.drop width)

/-- Words that were written one behind the other are read back. -/
theorem row_flatMap_bits {width : Nat} (words : List (BitVec (8 * width))) :
    row width words.length (words.flatMap Word.bits) = words := by
  induction words with
  | nil => rfl
  | cons word words ih =>
    have first : (Word.bits word ++ words.flatMap Word.bits).take width = Word.bits word :=
      List.take_left' (Word.length_bits word)
    have others : (Word.bits word ++ words.flatMap Word.bits).drop width =
        words.flatMap Word.bits := List.drop_left' (Word.length_bits word)
    rw [List.length_cons, row, List.flatMap_cons, first, others, Word.toBits_bits, ih]

/-- Words behind their number, which has to be the expected one. -/
def words (width expected : Nat) : Decoder (List (BitVec (8 * width))) := do
  let carried ← count
  if carried ≠ expected then refuse (.elementCount expected carried)
  else return row width carried (← take .array (carried * width))

/-- A number of values of one kind. -/
def repeated (decoder : Decoder α) : Nat → Decoder (List α)
  | 0 => return []
  | n + 1 => do
    let first ← decoder
    let others ← repeated decoder n
    return first :: others

/-- One value for each member of a list. -/
def forEach {β : Type} (decoder : β → Decoder α) : List β → Decoder (List α)
  | [] => return []
  | b :: bs => do
    let first ← decoder b
    let others ← forEach decoder bs
    return first :: others

/-- The type with the code that is read. -/
def elementType : Decoder ElementType := do
  let code ← int32
  match ElementType.ofCode? code with
  | some type => return type
  | none => refuse (.unknownElementType code)

/-- The value that takes up the whole of some bytes. -/
def whole (decoder : Decoder α) (leftOver : Nat → ProtocolFault) (bytes : Bytes) :
    Except Failure α :=
  match decoder (.ofBytes bytes) with
  | .error failure _ => .error failure
  | .ok value rest =>
    if rest.bytes.isEmpty then .ok value
    else .error (.protocol rest.part (leftOver rest.bytes.length))

end Decoder

end SignalAccess

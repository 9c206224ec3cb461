import SignalAccess.Number.Binary
import SignalAccess.Text.Utf8
/-!
# Words

Numbers travel as words of a fixed width, the most significant byte in front. A word keeps the low
digits of its number, so a number that fits is read back as it was, and every run of bytes is the
word of the number that it denotes.
-/
namespace SignalAccess

namespace Word

/-- The word of a number, in bytes. -/
def bytes : (width : Nat) → (number : Nat) → Bytes
  | 0, _ => []
  | width + 1, number => bytes width (number / 256) ++ [UInt8.ofNat number]

/-- The number that a word denotes. -/
def number (word : Bytes) : Nat := word.foldl (fun high low => 256 * high + low.toNat) 0

/-- A number is written in as many bytes as its width says. -/
@[simp] theorem length_bytes (width number : Nat) : (bytes width number).length = width := by
  induction width generalizing number with
  | zero => rfl
  | succ width ih => simp [bytes, ih]

/-- The last byte of a word counts for its own value, and those in front of it 256 times as much. -/
theorem number_append (word : Bytes) (low : UInt8) :
    number (word ++ [low]) = 256 * number word + low.toNat := by
  simp [number]

/-- What is read back of a number is the part of it that its width holds. -/
theorem number_bytes (width value : Nat) :
    number (bytes width value) = value % 1 <<< (8 * width) := by
  induction width generalizing value with
  | zero => simp [bytes, number, Nat.mod_one]
  | succ width ih =>
    have digits : value % 1 <<< (8 * (width + 1)) =
        value % 256 + 256 * (value / 256 % 1 <<< (8 * width)) := by
      rw [Nat.mul_succ, Nat.add_comm, Nat.one_shiftLeft, Nat.one_shiftLeft, Nat.pow_add,
        Nat.mod_mul]
    rw [bytes, number_append, ih, UInt8.toNat_ofNat', digits, Nat.add_comm]

/-- A number that fits its word is read back. -/
theorem number_bytes_of_lt (width : Nat) {value : Nat} (fits : value < 1 <<< (8 * width)) :
    number (bytes width value) = value := by
  rw [number_bytes, Nat.mod_eq_of_lt fits]

/-- The word of a 32-bit unsigned integer. -/
def uint32 (i : UInt32) : Bytes := bytes 4 i.toNat

/-- The word of a 32-bit integer. -/
def int32 (i : Int32) : Bytes := uint32 i.toUInt32

/-- The word of a 16-bit unsigned integer. -/
def uint16 (i : UInt16) : Bytes := bytes 2 i.toNat

/-- The word of a 64-bit floating point number. -/
def float64 (x : Binary64) : Bytes := bytes 8 x.bits.toNat

/-- The word of a truth value: a 32-bit one or zero. -/
def truth (b : Bool) : Bytes := int32 (if b then 1 else 0)

/-- The word of a row of bits whose width is a number of bytes. -/
def bits {width : Nat} (word : BitVec (8 * width)) : Bytes := bytes width word.toNat

/-- An unsigned integer of 32 bits takes four bytes. -/
@[simp] theorem length_uint32 (i : UInt32) : (uint32 i).length = 4 := length_bytes 4 _

/-- A signed integer of 32 bits takes four bytes. -/
@[simp] theorem length_int32 (i : Int32) : (int32 i).length = 4 := length_bytes 4 _

/-- An unsigned integer of 16 bits takes two bytes. -/
@[simp] theorem length_uint16 (i : UInt16) : (uint16 i).length = 2 := length_bytes 2 _

/-- A floating point number of 64 bits takes eight bytes. -/
@[simp] theorem length_float64 (x : Binary64) : (float64 x).length = 8 := length_bytes 8 _

/-- A truth value takes four bytes, those of an integer. -/
@[simp] theorem length_truth (b : Bool) : (truth b).length = 4 := length_bytes 4 _

/-- A row of bits takes as many bytes as its width says. -/
@[simp] theorem length_bits {width : Nat} (word : BitVec (8 * width)) :
    (bits word).length = width := length_bytes width _

/-- The 32-bit unsigned integer of a word. -/
def toUInt32 (word : Bytes) : UInt32 := UInt32.ofNat (number word)

/-- The 32-bit integer of a word. -/
def toInt32 (word : Bytes) : Int32 := (toUInt32 word).toInt32

/-- The 16-bit unsigned integer of a word. -/
def toUInt16 (word : Bytes) : UInt16 := UInt16.ofNat (number word)

/-- The 64-bit floating point number of a word. -/
def toFloat64 (word : Bytes) : Binary64 := ⟨UInt64.ofNat (number word)⟩

/-- The row of bits of a word. -/
def toBits (width : Nat) (word : Bytes) : BitVec (8 * width) := BitVec.ofNat _ (number word)

/-- An unsigned integer of 32 bits is read back from its bytes. -/
@[simp] theorem toUInt32_uint32 (i : UInt32) : toUInt32 (uint32 i) = i := by
  simp [toUInt32, uint32, number_bytes_of_lt 4 i.toNat_lt]

/-- A signed integer of 32 bits is read back from its bytes. -/
@[simp] theorem toInt32_int32 (i : Int32) : toInt32 (int32 i) = i := by
  simp [toInt32, int32]

/-- An unsigned integer of 16 bits is read back from its bytes. -/
@[simp] theorem toUInt16_uint16 (i : UInt16) : toUInt16 (uint16 i) = i := by
  simp [toUInt16, uint16, number_bytes_of_lt 2 i.toNat_lt]

/-- A floating point number is read back from its bytes bit for bit, whatever it denotes. -/
@[simp] theorem toFloat64_float64 (x : Binary64) : toFloat64 (float64 x) = x := by
  simp [toFloat64, float64, number_bytes_of_lt 8 x.bits.toNat_lt]

/-- A row of bits is read back from its bytes. -/
@[simp] theorem toBits_bits {width : Nat} (word : BitVec (8 * width)) :
    toBits width (bits word) = word := by
  have fits : word.toNat < 1 <<< (8 * width) := by
    rw [Nat.one_shiftLeft]
    exact word.isLt
  simp [toBits, bits, number_bytes_of_lt width fits]

end Word

end SignalAccess

import SignalAccess.Data.ElementType
import SignalAccess.Number.Binary
/-!
# Values of elements

What the word of an element denotes: an integer, a floating point number, or a pair of them. Each
word of a type denotes one value, and the value has no other word of that type.
-/
namespace SignalAccess

/-- What the word of an element denotes. -/
inductive ElementValue where
  | integer (i : Int)
  | single (x : Binary32)
  | double (x : Binary64)
  | singlePair (real imaginary : Binary32)
  | doublePair (real imaginary : Binary64)
  deriving DecidableEq, Repr

namespace FlatType

/-- Every flat type, in the order of the codes. -/
def all : List FlatType :=
  [.char, .short, .int, .unsignedInt, .long, .float, .double, .unsignedChar, .unsignedShort,
    .unsignedLong, .long64, .unsignedLong64, .complex, .doubleComplex, .string, .capnp]

/-- The value of a word. -/
def value : (type : FlatType) → BitVec (8 * type.width) → ElementValue
  | .float, word => .single ⟨⟨word⟩⟩
  | .double, word => .double ⟨⟨word⟩⟩
  | .complex, word => .singlePair ⟨⟨word.extractLsb' 32 32⟩⟩ ⟨⟨word.extractLsb' 0 32⟩⟩
  | .doubleComplex, word => .doublePair ⟨⟨word.extractLsb' 64 64⟩⟩ ⟨⟨word.extractLsb' 0 64⟩⟩
  | type, word => .integer (if type.reading = .signed then word.toInt else word.toNat)

/-- The word of a value, if the type has one. -/
def word? : (type : FlatType) → ElementValue → Option (BitVec (8 * type.width))
  | .float, .single x => some x.bits.toBitVec
  | .double, .double x => some x.bits.toBitVec
  | .complex, .singlePair x y => some (x.bits.toBitVec ++ y.bits.toBitVec)
  | .doubleComplex, .doublePair x y => some (x.bits.toBitVec ++ y.bits.toBitVec)
  | type, .integer i =>
    let word := BitVec.ofInt (8 * type.width) i
    if type.value word = .integer i then some word else none
  | _, _ => none

/-- A word is that of its value. -/
theorem word?_value (type : FlatType) (word : BitVec (8 * type.width)) :
    type.word? (type.value word) = some word := by
  have joined (n : Nat) (w : BitVec (n + n)) : w.extractLsb' n n ++ w.extractLsb' 0 n = w := by
    ext i bound
    rw [BitVec.getElem_append]
    split
    · simp [BitVec.getLsbD_eq_getElem bound]
    · simp [show n + (i - n) = i by omega, BitVec.getLsbD_eq_getElem bound]
  cases type
  case float => rfl
  case double => rfl
  case complex => exact congrArg some (joined 32 word)
  case doubleComplex => exact congrArg some (joined 64 word)
  all_goals simp [word?, value, reading]

end FlatType

end SignalAccess

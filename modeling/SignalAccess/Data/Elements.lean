import SignalAccess.Wire.Input
import SignalAccess.Wire.Output
/-!
# Elements

A row of elements of one flat type. Elements are kept as the words that travel, so that every value,
floating point ones included, arrives as it was sent.
-/
namespace SignalAccess

/-- A row of elements of one flat type. -/
structure Elements where
  type : FlatType
  words : List (BitVec (8 * type.width))
  deriving DecidableEq

namespace Elements

/-- The type that a block declares for these elements. -/
def elementType (elements : Elements) : ElementType := .flat elements.type

/-- The number of elements. -/
def count (elements : Elements) : Nat := elements.words.length

/-- Whether there are elements of a type and number. -/
def areOf (elements : Elements) (type : ElementType) (count : Nat) : Bool :=
  elements.elementType == type && elements.count == count

/-- Elements that are all zero, unless the type is not flat. -/
def zeros : (type : ElementType) → (count : Nat) → Option Elements
  | .flat type, count => some ⟨type, List.replicate count 0⟩
  | _, _ => none

/-- The elements on the wire. -/
def encode (part : Section) (elements : Elements) : Encoding := .words part elements.type.width elements.words

/-- Reads a number of elements of a type. -/
def decode : (type : ElementType) → (count : Nat) → Decoder Elements
  | .flat type, count => do return ⟨type, ← Decoder.words type.width count⟩
  | type, _ => .refuse (.notFlat type)

end Elements

end SignalAccess

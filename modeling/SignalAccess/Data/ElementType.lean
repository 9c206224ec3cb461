/-!
# Element types

The types of elements that a block can declare. Sixteen of them are flat: their values travel as a
counted run of words of one width. The other seven name contents that travel in another way or not
at all. Every type has a wire code; the codes are consecutive from zero.
-/
namespace SignalAccess

/-- A type whose values are words of a fixed width. -/
inductive FlatType where
  | char
  | short
  | int
  | unsignedInt
  | long
  | float
  | double
  | unsignedChar
  | unsignedShort
  | unsignedLong
  | long64
  | unsignedLong64
  | complex
  | doubleComplex
  | string
  | capnp
  deriving DecidableEq, Repr

/-- How the word of a flat type denotes a value. -/
inductive Reading where
  /-- A signed integer. -/
  | signed
  /-- An unsigned integer. -/
  | unsigned
  /-- A binary floating point number. -/
  | floating
  /-- Two floating point numbers, the real part in front. -/
  | complex
  /-- A byte of a text or of a message in a foreign format. -/
  | byte
  deriving DecidableEq, Repr

namespace FlatType

/-- The number of bytes of one word. -/
def width : FlatType → Nat
  | .char | .unsignedChar | .string | .capnp => 1
  | .short | .unsignedShort => 2
  | .int | .unsignedInt | .float => 4
  | .long | .unsignedLong | .long64 | .unsignedLong64 | .double | .complex => 8
  | .doubleComplex => 16

/-- How the words denote values. -/
def reading : FlatType → Reading
  | .char | .short | .int | .long | .long64 => .signed
  | .unsignedChar | .unsignedShort | .unsignedInt | .unsignedLong | .unsignedLong64 => .unsigned
  | .float | .double => .floating
  | .complex | .doubleComplex => .complex
  | .string | .capnp => .byte

end FlatType

/-- A type that a block can declare for its elements. -/
inductive ElementType where
  /-- No type: absent error bars declare it. -/
  | unknown
  | flat (type : FlatType)
  | undefined
  | variableLength
  | compound
  | opaqueValue
  | enumeration
  | void
  deriving DecidableEq, Repr

namespace ElementType

/-- The wire code. -/
def code : ElementType → Int32
  | .unknown => 0
  | .flat .char => 1
  | .flat .short => 2
  | .flat .int => 3
  | .flat .unsignedInt => 4
  | .flat .long => 5
  | .flat .float => 6
  | .flat .double => 7
  | .flat .unsignedChar => 8
  | .flat .unsignedShort => 9
  | .flat .unsignedLong => 10
  | .flat .long64 => 11
  | .flat .unsignedLong64 => 12
  | .flat .complex => 13
  | .flat .doubleComplex => 14
  | .undefined => 15
  | .variableLength => 16
  | .flat .string => 17
  | .compound => 18
  | .opaqueValue => 19
  | .enumeration => 20
  | .void => 21
  | .flat .capnp => 22

/-- Every type, in the order of the codes. -/
def all : List ElementType :=
  [.unknown, .flat .char, .flat .short, .flat .int, .flat .unsignedInt, .flat .long, .flat .float,
    .flat .double, .flat .unsignedChar, .flat .unsignedShort, .flat .unsignedLong, .flat .long64,
    .flat .unsignedLong64, .flat .complex, .flat .doubleComplex, .undefined, .variableLength,
    .flat .string, .compound, .opaqueValue, .enumeration, .void, .flat .capnp]

/-- The type with a wire code, if there is one. -/
def ofCode? (code : Int32) : Option ElementType := all.find? (·.code == code)

/-- The code of a type leads back to the type. -/
theorem ofCode?_code (type : ElementType) : ofCode? type.code = some type := by
  rcases type with _ | flat | _ | _ | _ | _ | _ | _
  case flat => cases flat <;> rfl
  all_goals rfl

/-- The name under which messages and documents know the type. -/
def name : ElementType → String
  | .unknown => "Unknown"
  | .flat .char => "Char"
  | .flat .short => "Short"
  | .flat .int => "Int"
  | .flat .unsignedInt => "UnsignedInt"
  | .flat .long => "Long"
  | .flat .float => "Float"
  | .flat .double => "Double"
  | .flat .unsignedChar => "UnsignedChar"
  | .flat .unsignedShort => "UnsignedShort"
  | .flat .unsignedLong => "UnsignedLong"
  | .flat .long64 => "Long64"
  | .flat .unsignedLong64 => "UnsignedLong64"
  | .flat .complex => "Complex"
  | .flat .doubleComplex => "DComplex"
  | .undefined => "Undefined"
  | .variableLength => "Vlen"
  | .flat .string => "String"
  | .compound => "Compound"
  | .opaqueValue => "Opaque"
  | .enumeration => "Enum"
  | .void => "Void"
  | .flat .capnp => "Capnp"

/-- The type with a name, if there is one. -/
def ofName? (name : String) : Option ElementType := all.find? (·.name == name)

/-- Whether values of this type are pairs of a real and an imaginary part. -/
def isComplex : ElementType → Bool
  | .flat type => type.reading == .complex
  | _ => false

/-- Whether values of this type travel as a run of words. -/
def isFlat : ElementType → Bool
  | .flat _ => true
  | _ => false

/-- The number of bytes of one element, zero for a type without words. -/
def width : ElementType → Nat
  | .flat type => type.width
  | _ => 0

end ElementType

end SignalAccess

import SignalAccess.Data.Axis
import SignalAccess.Data.ElementValue
import SignalAccess.Data.Line
/-!
# Compressed axes

An axis whose coordinates lie on a line is replaced by the line; any compressed axis is replaced by
its coordinates. Both are done in floating point numbers of 64 bits, whatever the type of the axis:
a coordinate of an integer type is the integer part of its number, or the bound of the type that the
number is beyond.
-/
namespace SignalAccess

namespace FlatType

/-- Whether elements are numbers with which coordinates can be computed. -/
def isNumeric (type : FlatType) : Bool :=
  type.reading == .signed || type.reading == .unsigned || type.reading == .floating

/-- The least integer of an integer type. -/
def least (type : FlatType) : Int :=
  if type.reading = .signed then -(1 <<< (8 * type.width - 1) : Nat) else 0

/-- The greatest integer of an integer type. -/
def greatest (type : FlatType) : Int :=
  if type.reading = .signed then (1 <<< (8 * type.width - 1) : Nat) - 1
  else (1 <<< (8 * type.width) : Nat) - 1

/-- The number of a word of a numeric type. -/
def toBinary64 (type : FlatType) (word : BitVec (8 * type.width)) : Binary64 :=
  match type.value word with
  | .integer i => .ofInt i
  | .single x => .ofSingle x
  | .double x => x
  | _ => .nan

/-- The word of a numeric type that a number becomes. -/
def ofBinary64 : (type : FlatType) → Binary64 → BitVec (8 * type.width)
  | .float, x => x.toSingle.bits.toBitVec
  | .double, x => x.bits.toBitVec
  | type, x => BitVec.ofInt _ (x.truncate type.least type.greatest)

/-- What counts as a line for coordinates of a numeric type. Integers have to be exact as floating
point numbers, and their steps all the same. -/
def lineRule (type : FlatType) : LineRule Binary64 where
  precision :=
    match type with
    | .float => .ofRat false (1 / (1 <<< 23 : Nat))
    | .double => .ofRat false (1 / (1 <<< 52 : Nat))
    | _ => .zero
  limit :=
    if type.reading ≠ .floating ∧ type.width = 8 then some (.ofInt (1 <<< 53 : Nat)) else none
  settle step := type.toBinary64 (type.ofBinary64 step)

end FlatType

namespace Elements

/-- The numbers of elements, if they are numeric. -/
def numbers? (elements : Elements) : Option (List Binary64) :=
  if elements.type.isNumeric then some (elements.words.map elements.type.toBinary64) else none

/-- The line on which elements lie, if there is one. -/
def line? (elements : Elements) : Option (Line Binary64) :=
  elements.numbers? >>= Line.fit? .rounded elements.type.lineRule

end Elements

namespace Coordinates

/-- A number of values, each of them the one before it and a step. -/
def accumulate (step : Binary64) : (length : Nat) → (start : Binary64) → List Binary64
  | 0, _ => []
  | length + 1, start => start :: accumulate step length (start.add step)

/-- A number of values, each of them the first one and so many steps. -/
def arithmeticRun (length : Nat) (start step : Binary64) : List Binary64 :=
  (List.range length).map fun (i : Nat) => start.add ((Binary64.ofInt i).mul step)

/-- The numbers of the coordinates of a compressed axis, of which `declared` are expected. Memory is
idealised: a list of any length can be built, where an implementation that asks for the memory of all
`declared` numbers at once comes to an end when there is none, on 64-bit machines from 2^60 numbers
on. -/
def rebuild (declared : Nat) : Coordinates → Except ProtocolFault (List Binary64)
  | .linear start step => .ok (accumulate step declared start)
  | .runs lengths starts steps =>
    match starts.numbers?, steps.numbers? with
    | some starts, some steps =>
      .ok ((lengths.zip (starts.zip steps)).flatMap fun (length, start, step) =>
        arithmeticRun length.toInt.toNat start step)
    | _, _ => .error .runsNotNumeric
  | .literal values | .offsets values =>
    match values.numbers? with
    | some numbers => .ok numbers
    | none => .error .offsetsNotNumeric
  | .sequence length start step =>
    match start.numbers?, step.numbers? with
    | some (start :: _), some (step :: _) => .ok (arithmeticRun length.toNat start step)
    | some _, some _ => .error .sequenceTermMissing
    | _, _ => .error .sequenceNotNumeric

end Coordinates

namespace Axis

/-- Compresses an axis: whether its coordinates are replaced by the line on which they lie, and the axis
after that. An axis that is compressed already, or whose coordinates are irregular, too few or not
numeric, is left as it is. -/
def compress (axis : Axis) : Bool × Axis :=
  match axis.coordinates with
  | .literal values =>
    match values.line? with
    | some line => (true, { axis with coordinates := .linear line.start line.step })
    | none => (false, axis)
  | _ => (false, axis)

/-- The axis that compressing an axis makes, if it makes one. -/
def compressed? (axis : Axis) : Option Axis :=
  match axis.compress with
  | (true, compressed) => some compressed
  | (false, _) => none

/-- The coordinates of a type that numbers become, of which `declared` are expected. -/
def ofNumbers (type : ElementType) (declared : Nat) (numbers : List Binary64) :
    Except ProtocolFault Elements :=
  if numbers.length ≠ declared then .error (.coordinateCount numbers.length declared)
  else
    match type with
    | .flat flat =>
      if flat.isNumeric then .ok ⟨flat, numbers.map flat.ofBinary64⟩
      else .error (.notDecompressible type)
    | _ => .error (.notDecompressible type)

/-- The coordinates of an axis, each of them listed. -/
def elements (axis : Axis) : Except Failure Elements :=
  match axis.coordinates with
  | .literal values => .ok values
  | coordinates =>
    (coordinates.rebuild axis.count >>= ofNumbers axis.type axis.count).mapError (.protocol .axis)

end Axis

end SignalAccess

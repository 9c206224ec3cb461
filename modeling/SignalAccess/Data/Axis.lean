import SignalAccess.Data.ErrorBars
/-!
# Axes

An axis gives a coordinate to each index of one dimension of a block. The coordinates are listed, or
they come in one of four compressed forms, which have numbers on the wire. The axes of a block
travel in three rounds: all headers, all coordinates, all errors.
-/
namespace SignalAccess

/-- How the coordinates of an axis are given. -/
inductive Coordinates where
  /-- Each coordinate. -/
  | literal (values : Elements)
  /-- Coordinates at equal distances. -/
  | linear (start step : Binary64)
  /-- Runs of coordinates at equal distances: for each run its length, its first coordinate and its
  distance. -/
  | runs (lengths : List Int32) (starts steps : Elements)
  /-- Each coordinate, in a compressed form. -/
  | offsets (values : Elements)
  /-- One run of coordinates. -/
  | sequence (length : UInt32) (start step : Elements)
  deriving DecidableEq

namespace Coordinates

/-- Whether the coordinates are not simply listed. -/
def isCompressed : Coordinates → Bool
  | .literal _ => false
  | _ => true

/-- The number of the compressed form. Listed coordinates have none and report zero. -/
def method : Coordinates → Int32
  | .literal _ | .linear .. => 0
  | .runs .. => 1
  | .offsets _ => 2
  | .sequence .. => 3

/-- The number of terms that a header announces for the compressed form. -/
def terms : Coordinates → Nat
  | .literal _ | .linear .. => 0
  | .runs lengths _ _ => lengths.length
  | .offsets values => values.count
  | .sequence length _ _ => length.toNat

/-- The start and the step that a header carries. -/
def line : Coordinates → Binary64 × Binary64
  | .linear start step => (start, step)
  | _ => (.zero, .zero)

/-- The arrays whose type is that of the axis. -/
def arrays : Coordinates → List Elements
  | .literal values | .offsets values => [values]
  | .linear .. => []
  | .runs _ starts steps | .sequence _ starts steps => [starts, steps]

/-- What is wrong with the numbers of the arrays, if anything is. -/
def countFault? : Coordinates → (declared : Nat) → Option ProtocolFault
  | .literal values, declared =>
    if values.count = declared then none else some (.axisCountMismatch values.count declared)
  | .runs lengths starts steps, _ =>
    if starts.count = lengths.length ∧ steps.count = lengths.length then none
    else some .runCountMismatch
  | .sequence _ start step, _ =>
    if start.count = 1 ∧ step.count = 1 then none else some .sequenceTermCount
  | _, _ => none

/-- The coordinates on the wire. -/
def encode (part : Section) : Coordinates → Encoding
  | .literal values | .offsets values => values.encode part
  | .linear .. => .ok []
  | .runs lengths starts steps =>
    .joined [.words part 4 (lengths.map (·.toBitVec)), starts.encode part,
      steps.encode part]
  | .sequence _ start step => .joined [start.encode part, step.encode part]

end Coordinates

/-- The coordinates of one dimension of a block. -/
structure Axis where
  type : ElementType
  count : Nat
  coordinates : Coordinates
  errors : ErrorBars
  units : Text
  label : Text
  deriving DecidableEq

namespace Axis

/-- The axis with the given coordinates. -/
def literal (values : Elements) : Axis where
  type := values.elementType
  count := values.count
  coordinates := .literal values
  errors := .absent
  units := []
  label := []

/-- The axis whose coordinates are the indices themselves. -/
def index (count : Nat) : Axis where
  type := .flat .int
  count := count
  coordinates := .linear .zero .one
  errors := .absent
  units := []
  label := []

/-- What is wrong with an axis, if anything is. -/
def fault? (axis : Axis) : Option ProtocolFault :=
  if axis.coordinates.isCompressed && axis.type.isComplex then
    some (.complexAxisCompressed axis.type)
  else
    match axis.coordinates.arrays.find? (·.elementType != axis.type) with
    | some array => some (.axisTypeMismatch array.elementType axis.type)
    | none => axis.coordinates.countFault? axis.count <|> axis.errors.fault? axis.count

/-- What goes in front of the coordinates of an axis. -/
structure Header where
  type : ElementType
  errors : ErrorBars.Header
  count : Nat
  compressed : Bool
  start : Binary64
  step : Binary64
  method : Int32
  terms : Nat
  units : Text
  label : Text
  deriving DecidableEq

/-- The header of an axis. -/
def header (axis : Axis) : Header where
  type := axis.type
  errors := axis.errors.header
  count := axis.count
  compressed := axis.coordinates.isCompressed
  start := axis.coordinates.line.1
  step := axis.coordinates.line.2
  method := axis.coordinates.method
  terms := axis.coordinates.terms
  units := axis.units
  label := axis.label

namespace Header

/-- The header on the wire. -/
def encode (part : Section) (header : Header) : Encoding :=
  .joined [.int32 header.type.code, header.errors.encode part, .count part header.count,
    .truth header.compressed, .float64 header.start, .float64 header.step, .int32 header.method,
    .count part header.terms, .text part Limit.field header.units,
    .text part Limit.field header.label]

/-- What is wrong with a header, if anything is. -/
def fault? (header : Header) : Option ProtocolFault :=
  if header.compressed && header.type.isComplex then some (.complexAxisCompressed header.type)
  else if header.compressed && !(0 ≤ header.method && header.method ≤ 3) then
    some (.unknownCompression header.method)
  else none

/-- Reads a header. -/
def decode : Decoder Header := do
  let type ← Decoder.elementType
  let errors ← ErrorBars.Header.decode
  let count ← Decoder.count
  let compressed ← Decoder.truth
  let start ← Decoder.float64
  let step ← Decoder.float64
  let method ← Decoder.int32
  let terms ← Decoder.count
  let units ← Decoder.text Limit.field
  let label ← Decoder.text Limit.field
  let header : Header :=
    ⟨type, errors, count, compressed, start, step, method, terms, units, label⟩
  match header.fault? with
  | some fault => .refuse fault
  | none => return header

/-- Reads the coordinates that a header announces. -/
def coordinates (header : Header) : Decoder Coordinates :=
  if !header.compressed then do return .literal (← Elements.decode header.type header.count)
  else if header.method = 0 then return .linear header.start header.step
  else if header.method = 1 then do
    let lengths ← Decoder.words 4 header.terms
    let starts ← Elements.decode header.type header.terms
    let steps ← Elements.decode header.type header.terms
    return .runs (lengths.map fun word => ⟨⟨word⟩⟩) starts steps
  else if header.method = 2 then do
    return .offsets (← Elements.decode header.type header.terms)
  else do
    let start ← Elements.decode header.type 1
    let step ← Elements.decode header.type 1
    return .sequence (UInt32.ofNat header.terms) start step

/-- Reads the errors that a header announces, and puts the axis together. -/
def complete (header : Header) (coordinates : Coordinates) : Decoder Axis := do
  let errors ← ErrorBars.decode header.errors header.count
  return ⟨header.type, header.count, coordinates, errors, header.units, header.label⟩

end Header

/-- A block's axes on the wire. -/
def encodeAll (part : Section) (axes : List Axis) : Encoding :=
  .joined [
    .joined (axes.map fun axis => .checked part axis.fault? (axis.header.encode part)),
    .joined (axes.map (·.coordinates.encode part)),
    .joined (axes.map (·.errors.encode part))]

/-- Reads a block's axes. -/
def decodeAll (rank : Nat) : Decoder (List Axis) := do
  let headers ← Decoder.repeated Header.decode rank
  let coordinates ← Decoder.forEach Header.coordinates headers
  Decoder.forEach (fun (header, coordinates) => header.complete coordinates)
    (headers.zip coordinates)

end Axis

end SignalAccess

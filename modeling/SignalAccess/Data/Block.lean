import SignalAccess.Data.Axis
import SignalAccess.Data.Package
import SignalAccess.Wire.Version
/-!
# Data blocks

A data block answers one request: a row of elements or a package, error bars, and an axis for each
dimension. On the wire the header comes first; then the elements and their errors, the axes, and the
package, each as far as the header announces it. Every phase is reported against its own section.
-/
namespace SignalAccess

/-- The data that answer one request. -/
structure Block where
  type : ElementType
  /-- The number of elements, or of the items of a package. -/
  count : Nat
  /-- The elements, if the type is flat. -/
  elements : Option Elements
  /-- The position of the time axis, -1 when there is none. -/
  order : Int32
  errors : ErrorBars
  errorCode : Int32
  sourceStatus : Int32
  signalStatus : Int32
  units : Text
  label : Text
  description : Text
  errorMessage : Text
  axes : List Axis
  package : Option Package

namespace Block

/-- The block without data. -/
def empty : Block where
  type := .unknown
  count := 0
  elements := none
  order := -1
  errors := .absent
  errorCode := 0
  sourceStatus := 0
  signalStatus := 0
  units := []
  label := []
  description := []
  errorMessage := []
  axes := []
  package := none

/-- The block of some elements. -/
def ofElements (elements : Elements) : Block :=
  { empty with type := elements.elementType, count := elements.count, elements := some elements }

/-- The block of a package. -/
def ofPackage (package : Package) : Block :=
  { empty with type := .compound, count := package.count, package := some package }

/-- The number of dimensions. -/
def rank (block : Block) : Nat := block.axes.length

/-- The types that a block announces in its headers. -/
def announcedTypes (block : Block) : List ElementType :=
  block.type :: block.errors.type :: block.axes.flatMap fun axis => [axis.type, axis.errors.type]

/-- Whether the elements are those that the header announces. -/
def hasAnnouncedElements (block : Block) : Bool :=
  match block.elements with
  | some elements => elements.areOf block.type block.count
  | none => !block.type.isFlat

/-- What is wrong with a block for a peer of some version, if anything is. -/
def fault? (version : Version) (block : Block) : Option ProtocolFault :=
  if !block.hasAnnouncedElements then some (.dataMismatch block.type block.count)
  else if block.package.isSome && !version.has .package then some (.packageUnavailable version)
  else block.errors.fault? block.count

/-- The first announced type that a peer of some version does not know. -/
def unknownType? (version : Version) (block : Block) : Option ElementType :=
  block.announcedTypes.find? fun type => !version.knows type

/-- What goes in front of the contents of a block. -/
structure Header where
  count : Nat
  rank : Nat
  order : Int32
  type : ElementType
  errors : ErrorBars.Header
  errorCode : Int32
  sourceStatus : Int32
  signalStatus : Int32
  units : Text
  label : Text
  description : Text
  errorMessage : Text
  /-- The code of the package, zero when there is none. -/
  packageCode : Int32
  packageCount : Nat
  deriving DecidableEq

/-- The header of a block. -/
def header (block : Block) : Header where
  count := block.count
  rank := block.rank
  order := block.order
  type := block.type
  errors := block.errors.header
  errorCode := block.errorCode
  sourceStatus := block.sourceStatus
  signalStatus := block.signalStatus
  units := block.units
  label := block.label
  description := block.description
  errorMessage := block.errorMessage
  packageCode := (block.package.map (·.code)).getD 0
  packageCount := (block.package.map (·.count)).getD 0

namespace Header

/-- The header on the wire. -/
def encode (version : Version) (header : Header) : Encoding :=
  .joined [.count .header header.count, .count .header header.rank, .int32 header.order,
    .int32 header.type.code, header.errors.encode .header, .int32 header.errorCode,
    .int32 header.sourceStatus, .int32 header.signalStatus, .text .header Limit.field header.units,
    .text .header Limit.field header.label, .text .header Limit.field header.description,
    .text .header Limit.field header.errorMessage,
    if version.has .package then
      .joined [.int32 header.packageCode, .count .header header.packageCount]
    else .ok []]

/-- Reads a header. -/
def decode (version : Version) : Decoder Header := do
  let count ← Decoder.count
  let rank ← Decoder.count
  let order ← Decoder.int32
  let type ← Decoder.elementType
  let errors ← ErrorBars.Header.decode
  let errorCode ← Decoder.int32
  let sourceStatus ← Decoder.int32
  let signalStatus ← Decoder.int32
  let units ← Decoder.text Limit.field
  let label ← Decoder.text Limit.field
  let description ← Decoder.text Limit.field
  let errorMessage ← Decoder.text Limit.field
  let header : Header :=
    ⟨count, rank, order, type, errors, errorCode, sourceStatus, signalStatus, units, label,
      description, errorMessage, 0, 0⟩
  if version.has .package then
    let packageCode ← Decoder.int32
    let packageCount ← Decoder.count
    return { header with packageCode := packageCode, packageCount := packageCount }
  else return header

/-- Reads the elements that a header announces. No elements take no bytes. -/
def elements (header : Header) : Decoder (Option Elements) :=
  if !header.type.isFlat then return none
  else if header.count = 0 then return Elements.zeros header.type 0
  else do return some (← Elements.decode header.type header.count)

/-- Reads the package that a header announces. -/
def package (header : Header) : Decoder (Option Package) :=
  if header.packageCode = 0 then return none
  else do
    Decoder.enter .package
    return some (← Package.decode header.packageCode header.packageCount)

end Header

/-- The contents of a block on the wire, behind its header. -/
def encodeContents (block : Block) : Encoding :=
  .joined [
    if block.count = 0 then .ok [] else (block.elements.map (·.encode .data)).getD (.ok []),
    block.errors.encode .data,
    Axis.encodeAll .axis block.axes,
    (block.package.map (·.encode .package)).getD (.ok [])]

/-- A block on the wire, for a peer of some version. -/
def encode (version : Version) (block : Block) : Encoding :=
  match block.unknownType? version with
  | some type => .refuse .version (.typeUnavailable type version)
  | none =>
    .checked .header (block.fault? version) <|
      .joined [block.header.encode version, block.encodeContents]

/-- Reads a block from a peer of some version. -/
def read (version : Version) : Decoder Block := do
  Decoder.enter .header
  let header ← Header.decode version
  Decoder.enter .data
  let elements ← header.elements
  let errors ← ErrorBars.decode header.errors header.count
  Decoder.enter .axis
  let axes ← Axis.decodeAll header.rank
  let package ← header.package
  return {
    type := header.type, count := header.count, elements := elements, order := header.order
    errors := errors, errorCode := header.errorCode, sourceStatus := header.sourceStatus
    signalStatus := header.signalStatus, units := header.units, label := header.label
    description := header.description, errorMessage := header.errorMessage
    axes := axes, package := package }

/-- The block that takes up the whole of some bytes. -/
def decode (version : Version) (bytes : Bytes) : Except Failure Block :=
  (read version).whole .trailingBytesAfterBlock bytes

end Block

/-- The data blocks that answer the requests of one message. -/
structure BlockList where
  blocks : List Block

namespace BlockList

/-- The blocks on the wire. Their number is written if the peer's version reads it; otherwise there
has to be one block. -/
def encode (version : Version) (list : BlockList) : Encoding :=
  let blocks := Encoding.joined (list.blocks.map (·.encode version))
  if version.has .blockCount then .joined [.count .header list.blocks.length, blocks]
  else if list.blocks.length = 1 then blocks
  else .refuse .header (.blockCount version list.blocks.length)

/-- Reads blocks from a peer of some version. -/
def read (version : Version) : Decoder BlockList := do
  Decoder.enter .header
  let count ← if version.has .blockCount then Decoder.count else pure 1
  return ⟨← Decoder.repeated (Block.read version) count⟩

/-- The blocks that take up the whole of some bytes. -/
def decode (version : Version) (bytes : Bytes) : Except Failure BlockList :=
  (read version).whole (.trailingBytes · .blockList) bytes

end BlockList

end SignalAccess

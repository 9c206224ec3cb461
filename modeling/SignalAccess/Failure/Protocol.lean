import SignalAccess.Data.ElementType
import SignalAccess.Frame.MessageKind
import SignalAccess.Session.Role
import SignalAccess.Text.Basic
/-!
# Protocol faults

The ways in which an exchange can break its protocol, while a block is written or read, a frame is
cut from the stream, a session is out of step or a compressed axis does not add up. A fault is its
cause; the wording is one function of the cause. The code that accompanies a fault names the part
of the exchange that was being transferred.
-/
namespace SignalAccess

/-- The part of an exchange that a protocol fault is reported against, as its numeric code. -/
abbrev Section := Int32

namespace Section

/-- The header of a frame or block. -/
def header : Section := 61

/-- Array data and its error bars. -/
def data : Section := 62

/-- Coordinate axes. -/
def axis : Section := 63

/-- The opaque package of a block. -/
def package : Section := 64

/-- State and request blocks, and the session itself. -/
def state : Section := 65

/-- An element type that the peer's version does not know. -/
def version : Section := 9999

end Section

/-- What a reader was about to take from the wire. -/
inductive WirePart where
  | int32
  | uint32
  | float64
  | text
  | array
  | blob
  deriving DecidableEq, Repr

/-- The name under which messages know the part. -/
def WirePart.name : WirePart → String
  | .int32 => "i32"
  | .uint32 => "u32"
  | .float64 => "f64"
  | .text => "string"
  | .array => "array"
  | .blob => "byte blob"

/-- A breach of the protocol, by its cause. -/
inductive ProtocolFault where
  /-- The input ends before the part. -/
  | truncated (part : WirePart) (needed remaining : Nat)
  /-- A text to be written is too long for its field. -/
  | textTooLong (size limit : Nat)
  /-- An announced text is too long for its field. -/
  | textLengthTooLong (size limit : Nat)
  /-- The bytes of a text are not UTF-8. -/
  | textNotUtf8
  /-- A count does not fit its field. -/
  | countTooLarge (count : Nat)
  /-- An array's own count disagrees with the count declared for it. -/
  | elementCount (declared carried : Nat)
  /-- No element type has the code. -/
  | unknownElementType (code : Int32)
  /-- Values of the type do not travel as words. -/
  | notFlat (type : ElementType)
  /-- The peer's version is older than the type. -/
  | typeUnavailable (type : ElementType) (version : Int32)
  /-- The data of a block are not those that it declares. -/
  | dataMismatch (type : ElementType) (count : Nat)
  /-- The peer's version is older than opaque packages. -/
  | packageUnavailable (version : Int32)
  /-- The upper error array has the wrong length. -/
  | upperErrorCount (carried expected : Nat)
  /-- Lower errors are given without upper errors. -/
  | lowerErrorsAlone
  /-- The lower error array has another type or length than the upper one. -/
  | lowerErrorMismatch
  /-- A complex axis is in compressed form. -/
  | complexAxisCompressed (type : ElementType)
  /-- A coordinate array has another type than the axis. -/
  | axisTypeMismatch (carried declared : ElementType)
  /-- A literal axis has another number of coordinates than it declares. -/
  | axisCountMismatch (carried declared : Nat)
  /-- The runs of an axis and their offsets or intervals differ in number. -/
  | runCountMismatch
  /-- An arithmetic axis lacks its one offset or one interval. -/
  | sequenceTermCount
  /-- No compressed form has the number. -/
  | unknownCompression (method : Int32)
  /-- A structure lies deeper than any may. -/
  | structureTooDeep
  /-- A structure's type is not in the type table. -/
  | unknownStructureType (name : Text)
  /-- A structure has another number of fields than its type. -/
  | fieldCountMismatch (name : Text) (declared carried : Nat)
  /-- A field's contents are not of the declared kind. -/
  | fieldMismatch (type field : Text)
  /-- No kind of field has the tag. -/
  | unknownFieldTag (tag : Int32)
  /-- The items come in another carrier than the one there is. -/
  | unexpectedCarrier (carried expected : Text)
  /-- The carrier holds another number of items than the block declares. -/
  | carrierCount (carried declared : Nat)
  /-- No opaque package has the code. -/
  | unknownPackage (code : Int32)
  /-- A package holds another number of items than the block declares. -/
  | packageCount (carried declared : Nat)
  /-- A version without block counts carries one data block. -/
  | blockCount (version : Int32) (count : Nat)
  /-- A version without request counts carries one request. -/
  | requestCount (version : Int32) (count : Nat)
  /-- Bytes remain behind a complete block. -/
  | trailingBytes (count : Nat) (block : MessageKind)
  /-- Bytes remain behind a complete data block. -/
  | trailingBytesAfterBlock (count : Nat)
  /-- No kind of message has the header value. -/
  | unknownMessage (code : UInt16)
  /-- A header announces more bytes than the buffer admits. -/
  | payloadTooLarge (size limit : UInt32)
  /-- A header sets flags that have no meaning. -/
  | reservedFlags
  /-- The stream ends while a frame is incomplete. -/
  | endInsideFrame (buffered : Nat)
  /-- A payload is longer than a header can announce. -/
  | payloadTooLong (size : Nat)
  /-- The operation belongs to the other end of the session. -/
  | wrongRole (role : Role)
  /-- The handshake has not taken place. -/
  | notNegotiated
  /-- A reply carries another sequence number than the latest request. -/
  | sequenceMismatch (reply request : UInt32)
  /-- The server's version is no longer that of the handshake. -/
  | serverVersionChanged (old new : Int32)
  /-- A frame travels towards its sender. -/
  | wrongDirection
  /-- A frame carries another kind of message than the exchange asks for. -/
  | unexpectedMessage (expected : MessageKind) (received : Option MessageKind)
  /-- The runs of a compressed axis have no numeric offsets or intervals. -/
  | runsNotNumeric
  /-- The offsets of a compressed axis are not numeric. -/
  | offsetsNotNumeric
  /-- The terms of an arithmetic axis are not numeric. -/
  | sequenceNotNumeric
  /-- An arithmetic axis has no offset or no interval. -/
  | sequenceTermMissing
  /-- A compressed axis stands for another number of coordinates than it declares. -/
  | coordinateCount (rebuilt declared : Nat)
  /-- Coordinates of the type cannot be rebuilt. -/
  | notDecompressible (type : ElementType)
  /-- A breach that the peer or a reader describes in its own words. -/
  | described (text : Text)
  deriving DecidableEq, Repr

/-- The wording of a breach. -/
def ProtocolFault.message : ProtocolFault → String
  | .truncated part needed remaining =>
    s!"Truncated {part.name}: need {needed} bytes, {remaining} remain"
  | .textTooLong size limit => s!"String of {size} bytes exceeds the {limit} byte limit"
  | .textLengthTooLong size limit => s!"String length {size} exceeds the {limit} byte limit"
  | .textNotUtf8 => "String is not UTF-8"
  | .countTooLarge count => s!"Count {count} does not fit the wire"
  | .elementCount declared carried =>
    s!"Element count mismatch: header declares {declared}, payload carries {carried}"
  | .unknownElementType code => s!"Unknown data type discriminant {code}"
  | .notFlat type => s!"{type.name} elements have no flat encoding"
  | .typeUnavailable type version =>
    s!"{type.name} data cannot be sent to a protocol version {version} peer"
  | .dataMismatch type count =>
    s!"Data array does not match data_type {type.name} and data_n {count}"
  | .packageUnavailable version =>
    s!"Opaque packages cannot be sent to a protocol version {version} peer"
  | .upperErrorCount carried expected =>
    s!"Upper error array has {carried} elements, expected {expected}"
  | .lowerErrorsAlone => "Lower error bars given without upper error bars"
  | .lowerErrorMismatch => "Lower error array does not match the upper error array"
  | .complexAxisCompressed type => s!"{type.name} dimensions cannot be compressed"
  | .axisTypeMismatch carried declared =>
    s!"Dimension values are {carried.name}, header declares {declared.name}"
  | .axisCountMismatch carried declared => s!"Dimension has {carried} values, dim_n is {declared}"
  | .runCountMismatch => "Domain offsets and intervals must match the sample runs"
  | .sequenceTermCount => "Arithmetic dimensions carry one offset and one interval"
  | .unknownCompression method => s!"Unknown dimension compression method {method}"
  | .structureTooDeep => "Structure graph nests too deeply"
  | .unknownStructureType name => s!"Type '{String.ofList name}' is not in the type table"
  | .fieldCountMismatch name declared carried =>
    s!"'{String.ofList name}' declares {declared} fields, item has {carried}"
  | .fieldMismatch type field =>
    s!"Field '{String.ofList type}.{String.ofList field}' does not match its declaration"
  | .unknownFieldTag tag => s!"Unknown field tag {tag}"
  | .unexpectedCarrier carried expected =>
    s!"Received structure type '{String.ofList carried}' where '{String.ofList expected}' was expected"
  | .carrierCount carried declared =>
    s!"Carrier holds {carried} items, block header declares {declared}"
  | .unknownPackage code => s!"Unknown opaque package type {code}"
  | .packageCount carried declared =>
    s!"Opaque package holds {carried} items, header declares {declared}"
  | .blockCount version count =>
    s!"Protocol version {version} carries exactly one data block, not {count}"
  | .requestCount version count =>
    s!"Protocol version {version} carries exactly one request, not {count}"
  | .trailingBytes count block => s!"{count} trailing bytes after {block.name}"
  | .trailingBytesAfterBlock count => s!"{count} trailing bytes after DataBlock"
  | .unknownMessage code => s!"Unknown message type {code}"
  | .payloadTooLarge size limit => s!"Payload size {size} exceeds maximum {limit}"
  | .reservedFlags => "Reserved flag bits must be 0"
  | .endInsideFrame buffered => s!"Stream ended inside a frame ({buffered} bytes buffered)"
  | .payloadTooLong size => s!"Payload of {size} bytes does not fit a frame"
  | .wrongRole role => s!"Operation not available to a {role.name} session"
  | .notNegotiated => "Handshake not completed"
  | .sequenceMismatch reply request => s!"Reply sequence {reply} does not match request {request}"
  | .serverVersionChanged old new =>
    s!"Server protocol version changed from {old} to {new}: server restarted?"
  | .wrongDirection => "Frame travels in the wrong direction"
  | .unexpectedMessage expected received =>
    let got := (received.map fun kind => "Some(" ++ kind.name ++ ")").getD "None"
    s!"Expected {expected.name} frame, got {got}"
  | .runsNotNumeric => "Domain offsets and intervals must be numeric"
  | .offsetsNotNumeric => "Dimension offsets must be numeric"
  | .sequenceNotNumeric => "Arithmetic offset and interval must be numeric"
  | .sequenceTermMissing => "Arithmetic dimension without offset or interval"
  | .coordinateCount rebuilt declared => s!"Decompressed {rebuilt} values, dim_n is {declared}"
  | .notDecompressible type => s!"{type.name} dimensions cannot be decompressed"
  | .described text => String.ofList text

end SignalAccess

import SignalAccess.Failure.Basic
import SignalAccess.Wire.Word
/-!
# Frames

Every message travels in a frame: a header of eleven bytes, and the payload whose length the header
announces. The header says what kind of message follows, in which direction it travels, and to which
request it belongs.
-/
namespace SignalAccess

/-- The header of a frame. -/
structure FrameHeader where
  /-- The code of the message kind. -/
  kindCode : UInt16
  flags : UInt8
  /-- The number of the request that the frame belongs to. -/
  sequence : UInt32
  /-- The number of bytes of the payload. -/
  length : UInt32
  deriving DecidableEq, Repr

namespace FrameHeader

/-- The number of bytes of a header. -/
def size : Nat := 11

/-- The flag of frames that travel to the client. -/
def toClient : UInt8 := 1

/-- The flag of replies that report failures. -/
def hasFailures : UInt8 := 2

/-- The flags without a meaning. -/
def reserved : UInt8 := 0xFC

/-- The largest payload that a buffer admits unless it is told otherwise. -/
def standardLimit : UInt32 := 1073741824

/-- The kind of message, if its code is assigned. -/
def kind? (header : FrameHeader) : Option MessageKind :=
  MessageKind.ofCode? header.kindCode

/-- Whether a flag is set. -/
def has (header : FrameHeader) (flag : UInt8) : Bool := header.flags &&& flag != 0

/-- Whether the frame travels to the client. -/
def isToClient (header : FrameHeader) : Bool := header.has toClient

/-- Whether the frame ends the exchange. -/
def isClosedown (header : FrameHeader) : Bool := header.kind? == some .closedown

/-- What is wrong with a header whose payload may have `limit` bytes, if anything is. -/
def fault? (limit : UInt32) (header : FrameHeader) : Option ProtocolFault :=
  if header.kind?.isNone then some (.unknownMessage header.kindCode)
  else if limit < header.length then some (.payloadTooLarge header.length limit)
  else if header.has reserved then some .reservedFlags
  else none

/-- A header that is refused unless nothing is wrong with it. -/
def validate (limit : UInt32) (header : FrameHeader) : Except Failure Unit :=
  match header.fault? limit with
  | some fault => .error (.protocol .header fault)
  | none => .ok ()

/-- The bytes of a header. -/
def encode (header : FrameHeader) : Bytes :=
  Word.uint16 header.kindCode ++ [header.flags] ++ Word.uint32 header.sequence
    ++ Word.uint32 header.length

/-- Every header takes up the same number of bytes. -/
@[simp] theorem length_encode (header : FrameHeader) : header.encode.length = size := by
  simp [encode, size]

/-- The header at the front of some bytes, if they are enough. -/
def decode? (bytes : Bytes) : Option FrameHeader :=
  match bytes with
  | k :: l :: flags :: s :: t :: u :: v :: a :: b :: c :: d :: _ =>
    some ⟨Word.toUInt16 [k, l], flags, Word.toUInt32 [s, t, u, v], Word.toUInt32 [a, b, c, d]⟩
  | _ => none

end FrameHeader

/-- A header with its payload. -/
structure Frame where
  header : FrameHeader
  payload : Bytes
  deriving DecidableEq, Repr

/-- The bytes of a frame. -/
def Frame.encode (frame : Frame) : Bytes := frame.header.encode ++ frame.payload

end SignalAccess

import SignalAccess.Wire.Input
import SignalAccess.Wire.Output
import SignalAccess.Wire.Version
/-!
# What a client states

A client opens a session by stating who it is and how it wants its data. The state is written for
the lower of two versions, its own and that of the receiver; the own version stands at its front, so
the receiver can tell which fields follow.
-/
namespace SignalAccess

/-- How a client wants its data. -/
structure DataOptions where
  withoutAxes : Bool
  doubleData : Bool
  doubleTime : Bool
  doubleAxes : Bool
  scalar : Bool
  bytes : Bool
  bad : Bool
  metadata : Bool
  asIs : Bool
  uncalibrated : Bool
  withoutOffset : Bool
  deriving DecidableEq, Repr

namespace DataOptions

/-- No option is chosen. -/
def none : DataOptions :=
  ⟨false, false, false, false, false, false, false, false, false, false, false⟩

/-- The options, in the order of the wire. -/
def toList (options : DataOptions) : List Bool :=
  [options.withoutAxes, options.doubleData, options.doubleTime, options.doubleAxes,
    options.scalar, options.bytes, options.bad, options.metadata, options.asIs, options.uncalibrated,
    options.withoutOffset]

/-- The options on the wire. -/
def encode (options : DataOptions) : Encoding := .joined (options.toList.map .truth)

/-- Reads the options. -/
def decode : Decoder DataOptions := do
  return {
    withoutAxes := ← Decoder.truth
    doubleData := ← Decoder.truth
    doubleTime := ← Decoder.truth
    doubleAxes := ← Decoder.truth
    scalar := ← Decoder.truth
    bytes := ← Decoder.truth
    bad := ← Decoder.truth
    metadata := ← Decoder.truth
    asIs := ← Decoder.truth
    uncalibrated := ← Decoder.truth
    withoutOffset := ← Decoder.truth }

end DataOptions

/-- Who a client is, and how it wants its data. -/
structure ClientState where
  version : Version
  /-- The number of the client's process. -/
  process : Int32
  /-- The seconds after which the server may leave an idle session. -/
  timeout : Int32
  user : Text
  flags : UInt32
  alternativeRank : Int32
  options : DataOptions
  privateFlags : UInt32
  system : Text
  /-- The identifier of the client's work. -/
  identifier : Text
  deriving DecidableEq

namespace ClientState

/-- The state on the wire, for a receiver of some version. A receiver without flags still reads an
integer in their place. -/
def encode (version : Version) (client : ClientState) : Encoding :=
  let shared : Version := min client.version version
  .joined [.int32 client.version, .int32 client.process, .int32 client.timeout,
    .text .state Limit.field client.user,
    if shared.has .clientFlags then .uint32 client.flags else .int32 0,
    .int32 client.alternativeRank, client.options.encode,
    if shared.has .privateFlags then .uint32 client.privateFlags else .ok [],
    if shared.has .clientSystem then
      .joined [.text .state Limit.field client.system, .text .state Limit.field client.identifier]
    else .ok []]

/-- Reads the flags and the rank; both are zero when the version has no flags. -/
def decodeFlags (shared : Version) : Decoder (UInt32 × Int32) :=
  if shared.has .clientFlags then do
    let flags ← Decoder.uint32
    let rank ← Decoder.int32
    return (flags, rank)
  else do
    let _ ← Decoder.int32
    let _ ← Decoder.int32
    return (0, 0)

/-- Reads a state at the version of the receiver. -/
def read (version : Version) : Decoder ClientState := do
  Decoder.enter .state
  let own ← Decoder.int32
  let shared : Version := min own version
  let process ← Decoder.int32
  let timeout ← Decoder.int32
  let user ← Decoder.text Limit.field
  let (flags, rank) ← decodeFlags shared
  let options ← DataOptions.decode
  let privateFlags ← if shared.has .privateFlags then Decoder.uint32 else pure 0
  let system ← if shared.has .clientSystem then Decoder.text Limit.field else pure []
  let identifier ← if shared.has .clientSystem then Decoder.text Limit.field else pure []
  return ⟨own, process, timeout, user, flags, rank, options, privateFlags, system, identifier⟩

/-- The state that takes up the whole of some bytes. -/
def decode (version : Version) (bytes : Bytes) : Except Failure ClientState :=
  (read version).whole (.trailingBytes · .clientState) bytes

end ClientState

end SignalAccess

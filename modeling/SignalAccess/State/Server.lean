import SignalAccess.Failure.Log
import SignalAccess.Wire.Input
import SignalAccess.Wire.Output
import SignalAccess.Wire.Version
/-!
# What a server states

A server states who it is when a session opens and with every reply. The failures of the last
request come with the state, the first one as its headline.
-/
namespace SignalAccess

/-- Who a server is, and what went wrong. -/
structure ServerState where
  version : Version
  /-- The code of the headline failure, zero when there is none. -/
  errorCode : Int32
  errorMessage : Text
  system : Text
  /-- The identifier of the server's work. -/
  identifier : Text
  log : FailureLog
  deriving DecidableEq

/-- A record of a failure on the wire. -/
def FailureRecord.encode (record : FailureRecord) : Encoding :=
  .joined [.int32 record.origin.number, .int32 record.code,
    .text .state Limit.field record.location, .text .state Limit.field record.message]

/-- Reads a record of a failure. -/
def FailureRecord.decode : Decoder FailureRecord := do
  let origin ← Decoder.int32
  let code ← Decoder.int32
  let location ← Decoder.text Limit.field
  let message ← Decoder.text Limit.field
  return ⟨.ofNumber origin, location, code, message⟩

namespace ServerState

/-- The state with the failures of a request, whose first one becomes the headline. -/
def withLog (server : ServerState) (log : FailureLog) : ServerState :=
  match log.first? with
  | some first =>
    { server with
      errorCode := first.code, errorMessage := first.message.takeBytes Limit.field, log := log }
  | none => { server with errorCode := 0, errorMessage := [], log := log }

/-- The state on the wire, for a receiver of some version. -/
def encode (version : Version) (server : ServerState) : Encoding :=
  let shared : Version := min server.version version
  .joined [.int32 server.version, .int32 server.errorCode, .count .state server.log.size,
    .text .state Limit.field server.errorMessage,
    if shared.has .serverSystem then
      .joined [.text .state Limit.field server.system, .text .state Limit.field server.identifier]
    else .ok [],
    .joined (server.log.records.map (·.encode))]

/-- Reads a state at the version of the receiver. -/
def read (version : Version) : Decoder ServerState := do
  Decoder.enter .state
  let own ← Decoder.int32
  let shared : Version := min own version
  let errorCode ← Decoder.int32
  let failures ← Decoder.count
  let errorMessage ← Decoder.text Limit.field
  let system ← if shared.has .serverSystem then Decoder.text Limit.field else pure []
  let identifier ← if shared.has .serverSystem then Decoder.text Limit.field else pure []
  let records ← Decoder.repeated FailureRecord.decode failures
  return ⟨own, errorCode, errorMessage, system, identifier, ⟨records⟩⟩

/-- The state that takes up the whole of some bytes. -/
def decode (version : Version) (bytes : Bytes) : Except Failure ServerState :=
  (read version).whole (.trailingBytes · .serverState) bytes

end ServerState

end SignalAccess

import SignalAccess.Request.Basic
import SignalAccess.Wire.Input
import SignalAccess.Wire.Output
import SignalAccess.Wire.Version
/-!
# Request blocks

The requests of one message. Only what the client fills in travels; the server reads source and
signal again, so what follows from them stays behind.
-/
namespace SignalAccess

namespace Request

/-- A request on the wire, for a peer of some version. -/
def encode (version : Version) (request : Request) : Encoding :=
  .joined [.int32 request.kind.id, .int32 request.pulse, .int32 request.pass,
    .text .state Limit.field request.passName, .text .state Limit.field request.archive,
    .text .state Limit.field request.device, .text .state Limit.field request.server,
    .text .state Limit.field request.path, .text .state Limit.field request.file,
    .text .state Limit.field request.format, .text .state Limit.long request.signal,
    if version.has .requestSource then
      .joined [.text .state Limit.long request.source, .text .state Limit.name request.delimiter]
    else .ok [],
    if version.has .requestPut then .truth request.put else .ok []]

/-- Reads a request from a peer of some version. -/
def read (version : Version) : Decoder Request := do
  let kind ← Decoder.int32
  let pulse ← Decoder.int32
  let pass ← Decoder.int32
  let passName ← Decoder.text Limit.field
  let archive ← Decoder.text Limit.field
  let device ← Decoder.text Limit.field
  let server ← Decoder.text Limit.field
  let path ← Decoder.text Limit.field
  let file ← Decoder.text Limit.field
  let format ← Decoder.text Limit.field
  let signal ← Decoder.text Limit.long
  let source ← if version.has .requestSource then Decoder.text Limit.long else pure []
  let delimiter ← if version.has .requestSource then Decoder.text Limit.name else pure []
  let put ← if version.has .requestPut then Decoder.truth else pure false
  return {
    blank with
    kind := .ofId kind, pulse := pulse, pass := pass, passName := passName, archive := archive
    device := device, server := server, path := path, file := file, format := format
    signal := signal, source := source, delimiter := delimiter, put := put }

end Request

/-- The requests of one message. -/
structure RequestBlock where
  requests : List Request
  deriving DecidableEq

namespace RequestBlock

/-- The requests on the wire. Their number is written if the peer's version reads it; otherwise
there has to be one request. -/
def encode (version : Version) (block : RequestBlock) : Encoding :=
  let requests := Encoding.joined (block.requests.map (·.encode version))
  if version.has .requestCount then .joined [.count .state block.requests.length, requests]
  else if block.requests.length = 1 then requests
  else .refuse .state (.requestCount version block.requests.length)

/-- Reads requests from a peer of some version. -/
def read (version : Version) : Decoder RequestBlock := do
  Decoder.enter .state
  let count ← if version.has .requestCount then Decoder.count else pure 1
  return ⟨← Decoder.repeated (Request.read version) count⟩

/-- The requests that take up the whole of some bytes. -/
def decode (version : Version) (bytes : Bytes) : Except Failure RequestBlock :=
  (read version).whole (.trailingBytes · .requestBlock) bytes

end RequestBlock

end SignalAccess

import SignalAccess.Data.Block
import SignalAccess.Frame.Buffer
import SignalAccess.Request.Block
import SignalAccess.Session.Connection
import SignalAccess.State.Client
import SignalAccess.State.Server
/-!
# Sessions

A session is one end of a framed connection. The client states who it is, the server answers, and
the lower of their versions governs what follows: the client sends a block of requests, and the
server replies with its state and the data blocks, under the number of the request. Either end may
close down.

An operation that fails leaves the session in the state in which the failure met it: frames that
were taken stay taken, and the number of a request stays used.
-/
namespace SignalAccess

/-- One end of a framed connection. -/
structure Session where
  role : Role
  connection : Connection
  buffer : FrameBuffer
  /-- Frames that have arrived and were not asked for yet. -/
  pending : List Frame
  /-- The version that governs, once the handshake has settled it. -/
  version : Option Version
  /-- The version that the server stated in the handshake. -/
  serverVersion : Version
  /-- The number of the latest request. -/
  sequence : UInt32
  deriving DecidableEq

namespace Session

/-- A session in front of its handshake. -/
def opened (role : Role) (connection : Connection) (limit : UInt32) : Session where
  role := role
  connection := connection
  buffer := .empty limit
  pending := []
  version := none
  serverVersion := .current
  sequence := 0

/-- Something that a session does. -/
abbrev Operation := EStateM Failure Session

namespace Operation

variable {α : Type}

/-- Goes on with a result. -/
def ofResult : Except Failure α → Operation α
  | .ok value => pure value
  | .error failure => throw failure

/-- Gives nothing when the peer has closed down. -/
def unlessClosed (operation : Operation α) : Operation (Option α) := fun session =>
  match operation session with
  | .ok value session => .ok (some value) session
  | .error .connectionClosed session => .ok none session
  | .error failure session => .error failure session

/-- Goes on only at one of the two ends. -/
def requireRole (role : Role) : Operation Unit := do
  let session ← get
  if session.role = role then return () else throw (.protocol .state (.wrongRole session.role))

/-- The version that governs; there is none in front of the handshake. -/
def requireVersion : Operation Version := do
  match (← get).version with
  | some version => return version
  | none => throw (.protocol .state .notNegotiated)

/-- Meets the end of the stream, which may not be inside a frame. -/
def endOfStream : Operation α := do
  ofResult (← get).buffer.ensureIdle
  throw .connectionClosed

/-- The first frame that what arrives completes. -/
def awaitFrame : List Arrival → Operation Frame
  | [] => endOfStream
  | arrival :: arrivals => do
    modify fun session =>
      { session with connection := { session.connection with arrivals := arrivals } }
    match arrival with
    | .failure code => throw (.system (.numbered code))
    | .piece [] => endOfStream
    | .piece bytes =>
      let (frames, buffer) := (← get).buffer.push bytes
      modify fun session => { session with buffer := buffer }
      match ← ofResult frames with
      | [] => awaitFrame arrivals
      | frame :: pending =>
        modify fun session => { session with pending := pending }
        return frame

/-- The next frame from the peer. -/
def nextFrame : Operation Frame := do
  let session ← get
  match session.pending with
  | frame :: pending =>
    set { session with pending := pending }
    return frame
  | [] => awaitFrame session.connection.arrivals

/-- The next frame from the peer, which has to carry one kind of message. -/
def expect (kind : MessageKind) : Operation Frame := do
  let frame ← nextFrame
  let role := (← get).role
  if frame.header.isClosedown then throw .connectionClosed
  else if frame.header.isToClient != (role == .client) then throw (.protocol .header .wrongDirection)
  else if frame.header.kind? ≠ some kind then
    throw (.protocol .header (.unexpectedMessage kind frame.header.kind?))
  else return frame

/-- Goes on only with a frame that belongs to the latest request. -/
def requireSequence (frame : Frame) : Operation Unit := do
  let latest := (← get).sequence
  if frame.header.sequence = latest then return ()
  else throw (.protocol .state (.sequenceMismatch frame.header.sequence latest))

end Operation

/-- A message to be sent: its kind, its flags and its payload. -/
structure Message where
  kind : MessageKind
  flags : UInt8
  payload : Bytes
  deriving DecidableEq

/-- The flag of the frames that an end sends. -/
def outboundFlag : Role → UInt8
  | .client => 0
  | .server => FrameHeader.toClient

/-- The frame in which an end sends a message. -/
def frame (session : Session) (message : Message) : Except Failure Frame :=
  let length := message.payload.length
  if length < UInt32.size then
    .ok ⟨⟨message.kind.code, message.flags ||| outboundFlag session.role, session.sequence,
      UInt32.ofNat length⟩, message.payload⟩
  else .error (.protocol .header (.payloadTooLong length))

namespace Operation

/-- Sends messages in one go. -/
def send (messages : List Message) : Operation Unit := do
  let session ← get
  let frames ← ofResult (messages.mapM session.frame)
  let connection ← ofResult (session.connection.write (frames.flatMap Frame.encode))
  set { session with connection := connection }

end Operation

/-- The flags of the frames of a reply. -/
def replyFlags (server : ServerState) : UInt8 :=
  if server.log.isEmpty then 0 else FrameHeader.hasFailures

/-- Settles the version that governs. -/
def settle (client server : Version) (session : Session) : Session :=
  { session with version := some (Version.negotiated client server), serverVersion := server }

open Operation

/-- The client's part of the handshake: states who it is, and reads the server's answer. -/
def openAsClient (client : ClientState) : Operation ServerState := do
  requireRole .client
  let payload ← ofResult (client.encode client.version)
  send [⟨.clientState, 0, payload⟩]
  let frame ← expect .serverState
  let server ← ofResult (ServerState.decode client.version frame.payload)
  modify (settle client.version server.version)
  return server

/-- The server's part of the handshake: reads who the client is, and answers. -/
def openAsServer (server : ServerState) : Operation ClientState := do
  requireRole .server
  let frame ← expect .clientState
  let client ← ofResult (ClientState.decode .current frame.payload)
  modify (settle client.version server.version)
  let payload ← ofResult (server.encode (Version.negotiated client.version server.version))
  send [⟨.serverState, replyFlags server, payload⟩]
  return client

/-- Sends requests under a number of their own, which is the answer. -/
def sendRequests (block : RequestBlock) : Operation UInt32 := do
  requireRole .client
  let version ← requireVersion
  let payload ← ofResult (block.encode version)
  modify fun session => { session with sequence := session.sequence + 1 }
  send [⟨.requestBlock, 0, payload⟩]
  return (← get).sequence

/-- Receives requests, or nothing once the client has closed down. -/
def receiveRequests : Operation (Option RequestBlock) := do
  requireRole .server
  let version ← requireVersion
  match ← unlessClosed (expect .requestBlock) with
  | none => return none
  | some frame =>
    modify fun session => { session with sequence := frame.header.sequence }
    return some (← ofResult (RequestBlock.decode version frame.payload))

/-- Replies to the latest requests. -/
def sendReply (list : BlockList) (server : ServerState) : Operation Unit := do
  requireRole .server
  let version ← requireVersion
  let state ← ofResult (server.encode version)
  let blocks ← ofResult (list.encode version)
  send [⟨.serverState, replyFlags server, state⟩, ⟨.blockList, replyFlags server, blocks⟩]

/-- Receives the reply to the latest requests. Failures of the server come in its state; a server
whose version has changed is another server than that of the handshake. -/
def receiveReply : Operation (ServerState × BlockList) := do
  requireRole .client
  let version ← requireVersion
  let first ← expect .serverState
  requireSequence first
  let server ← ofResult (ServerState.decode version first.payload)
  let stated := (← get).serverVersion
  if server.version ≠ stated then
    throw (.protocol .state (.serverVersionChanged stated server.version))
  else
    let second ← expect .blockList
    requireSequence second
    let list ← ofResult (BlockList.decode version second.payload)
    return (server, list)

/-- Tells the peer that nothing more will come. -/
def close : Operation Unit := do
  send [⟨.closedown, 0, []⟩]
  modify fun session => { session with connection := { session.connection with isShut := true } }

end Session

end SignalAccess

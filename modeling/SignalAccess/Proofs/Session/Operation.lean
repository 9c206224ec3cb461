import SignalAccess.Proofs.Data.Block
import SignalAccess.Proofs.Request.Block
import SignalAccess.Proofs.Session.Reading
import SignalAccess.Proofs.State.Client
import SignalAccess.Proofs.State.Server

/-!
# What the operations of a settled session do

Sending never reads: it appends the frames of its messages to what was written. Receiving takes the
frames that the peer has sent and gives what their payloads decode to. Each operation is described by
one equation, or by what it gives once its frames have arrived and that it is starved before.
-/

namespace SignalAccess

namespace Session

/-- The session after it has written some bytes. -/
def writing (session : Session) (bytes : Bytes) : Session :=
  { session with connection :=
      { session.connection with written := session.connection.written ++ bytes } }

/-- The frame in which an end sends a message under a number. -/
def Message.frame (role : Role) (number : UInt32) (message : Message) : Frame :=
  ⟨⟨message.kind.code, message.flags ||| outboundFlag role, number,
    UInt32.ofNat message.payload.length⟩, message.payload⟩

/-- A message that fits a frame: it has no flags but that of failures, and its payload keeps to a
limit. -/
structure Message.Fits (limit : UInt32) (message : Message) : Prop where
  flagged : message.flags = 0 ∨ message.flags = FrameHeader.hasFailures
  within : message.payload.length ≤ limit.toNat

variable {limit : UInt32} {message : Message}

/-- The payload of a message that fits has a length that a header can state. -/
theorem Message.Fits.lt (fits : message.Fits limit) : message.payload.length < UInt32.size :=
  Nat.lt_of_le_of_lt fits.within limit.toNat_lt

/-- The frame of a message is of the kind of the message. -/
theorem Message.kind?_frame (role : Role) (number : UInt32) (message : Message) :
    (message.frame role number).header.kind? = some message.kind :=
  MessageKind.ofCode?_code message.kind

/-- The flags of a frame say in which direction it travels. -/
theorem Message.Fits.isToClient_frame (fits : message.Fits limit) (role : Role) (number : UInt32) :
    (message.frame role number).header.isToClient = (role == .server) := by
  have flags : ∀ flags : UInt8, flags = 0 ∨ flags = FrameHeader.hasFailures →
      ((flags ||| outboundFlag role) &&& FrameHeader.toClient != 0) = (role == .server) := by
    rintro flags (rfl | rfl) <;> cases role <;> decide
  exact flags message.flags fits.flagged

/-- The frame of a message that fits is admitted. -/
theorem Message.Fits.admitted (fits : message.Fits limit) (role : Role) (number : UInt32) :
    (message.frame role number).Admitted limit := by
  have size : (UInt32.ofNat message.payload.length).toNat = message.payload.length :=
    UInt32.toNat_ofNat_of_lt' fits.lt
  have plain : ∀ flags : UInt8, flags = 0 ∨ flags = FrameHeader.hasFailures →
      ((flags ||| outboundFlag role) &&& FrameHeader.reserved != 0) = false := by
    rintro flags (rfl | rfl) <;> cases role <;> decide
  have known : (message.frame role number).header.kind?.isNone = false := by
    rw [kind?_frame]
    rfl
  have short : ¬ limit < (message.frame role number).header.length := by
    rw [UInt32.lt_iff_toNat_lt]
    exact Nat.not_lt_of_le (Nat.le_trans (Nat.le_of_eq size) fits.within)
  have unreserved : (message.frame role number).header.has FrameHeader.reserved = false :=
    plain message.flags fits.flagged
  refine ⟨FrameHeader.validate_eq_ok_iff.mpr ?_, size.symm⟩
  simp [FrameHeader.fault?, known, short, unreserved]

/-- The frames of messages that fit are made without failure. -/
theorem mapM_frame {session : Session} {messages : List Message}
    (short : ∀ message ∈ messages, message.payload.length < UInt32.size) :
    messages.mapM session.frame =
      .ok (messages.map (·.frame session.role session.sequence)) := by
  induction messages with
  | nil => rfl
  | cons message messages inductionHypothesis =>
    have first : session.frame message = .ok (message.frame session.role session.sequence) :=
      if_pos (short message List.mem_cons_self)
    have others := inductionHypothesis fun other member =>
      short other (List.mem_cons_of_mem message member)
    rw [List.mapM_cons, first, others]
    rfl

open Operation

variable {session : Session} {version : Version}

/-- Messages are written one behind the other. -/
theorem send_eq {messages : List Message} (writable : session.connection.writeFailure = none)
    (short : ∀ message ∈ messages, message.payload.length < UInt32.size) :
    send messages session =
      .ok ⟨⟩ (session.writing
        ((messages.map (·.frame session.role session.sequence)).flatMap Frame.encode)) := by
  have taken (bytes : Bytes) : session.connection.write bytes =
      .ok (session.writing bytes).connection := by
    simp only [Connection.write, writable, writing]
  simp only [send, get_bind, mapM_frame short, ofResult_ok_bind, taken]
  rfl

/-- Messages that can be sent are written, and the operation goes on behind them. -/
theorem send_bind {α : Type} {messages : List Message} {f : PUnit → Operation α}
    (writable : session.connection.writeFailure = none)
    (short : ∀ message ∈ messages, message.payload.length < UInt32.size) :
    (send messages >>= f) session =
      f ⟨⟩ (session.writing
        ((messages.map (·.frame session.role session.sequence)).flatMap Frame.encode)) := by
  simp only [bind, EStateM.bind, send_eq writable short]

/-- An operation of the right end goes on. -/
theorem requireRole_bind {α : Type} {role : Role} {f : Unit → Operation α}
    (same : session.role = role) : (requireRole role >>= f) session = f ⟨⟩ session := by
  simp only [requireRole, bind_assoc, get_bind, same, if_true, pure_bind]

/-- An operation behind the handshake goes on with the version that governs. -/
theorem requireVersion_bind {α : Type} {f : Version → Operation α}
    (settled : session.version = some version) :
    (requireVersion >>= f) session = f version session := by
  simp only [requireVersion, bind_assoc, get_bind, settled, pure_bind]

/-- An operation goes on behind a frame with the number of the session. -/
theorem requireSequence_bind {α : Type} {frame : Frame} {f : Unit → Operation α}
    (same : frame.header.sequence = session.sequence) :
    (requireSequence frame >>= f) session = f ⟨⟩ session := by
  simp only [requireSequence, bind_assoc, get_bind, same, if_true, pure_bind]

/-- The message in which a client asks for something. -/
def requestMessage (version : Version) (block : RequestBlock) : Message :=
  ⟨.requestBlock, 0, (block.encode version).written⟩

/-- The message in which a server states who it is and how a request went. -/
def stateMessage (version : Version) (server : ServerState) : Message :=
  ⟨.serverState, replyFlags server, (server.encode version).written⟩

/-- The message of the data blocks of a reply. -/
def blocksMessage (version : Version) (server : ServerState) (list : BlockList) : Message :=
  ⟨.blockList, replyFlags server, (list.encode version).written⟩

/-- Requests that can be written are sent under the number behind that of the latest ones. -/
theorem sendRequests_eq {block : RequestBlock} {payload : Bytes} (role : session.role = .client)
    (settled : session.version = some version) (writable : session.connection.writeFailure = none)
    (written : block.encode version = .ok payload)
    (fits : (requestMessage version block).Fits limit) :
    sendRequests block session = .ok (session.sequence + 1)
      (({ session with sequence := session.sequence + 1 } : Session).writing
        ((requestMessage version block).frame .client (session.sequence + 1)).encode) := by
  let next : Session := { session with sequence := session.sequence + 1 }
  have message : requestMessage version block = ⟨.requestBlock, 0, payload⟩ := by
    rw [requestMessage, written]
    rfl
  have short : ∀ message ∈ [requestMessage version block],
      message.payload.length < UInt32.size := by
    simpa using fits.lt
  have writableNext : next.connection.writeFailure = none := writable
  rw [message] at short ⊢
  rw [sendRequests, requireRole_bind role, requireVersion_bind settled, written, ofResult_ok_bind,
    modify_bind, send_bind writableNext short]
  simp [next, role, writing]

/-- A reply whose parts can be written is sent in one go. -/
theorem sendReply_eq_send {list : BlockList} {server : ServerState} {state blocks : Bytes}
    (role : session.role = .server) (settled : session.version = some version)
    (stateWritten : server.encode version = .ok state)
    (blocksWritten : list.encode version = .ok blocks) :
    sendReply list server session =
      send [stateMessage version server, blocksMessage version server list] session := by
  have first : stateMessage version server = ⟨.serverState, replyFlags server, state⟩ := by
    rw [stateMessage, stateWritten]
    rfl
  have second : blocksMessage version server list = ⟨.blockList, replyFlags server, blocks⟩ := by
    rw [blocksMessage, blocksWritten]
    rfl
  rw [first, second, sendReply, requireRole_bind role, requireVersion_bind settled, stateWritten,
    ofResult_ok_bind, blocksWritten, ofResult_ok_bind]

/-- A reply whose parts can be written is sent in two frames under the number of the request. -/
theorem sendReply_eq {list : BlockList} {server : ServerState} {state blocks : Bytes}
    (role : session.role = .server) (settled : session.version = some version)
    (writable : session.connection.writeFailure = none)
    (stateWritten : server.encode version = .ok state)
    (blocksWritten : list.encode version = .ok blocks)
    (stateFits : (stateMessage version server).Fits limit)
    (blocksFit : (blocksMessage version server list).Fits limit) :
    sendReply list server session = .ok ⟨⟩ (session.writing
      ([(stateMessage version server).frame .server session.sequence,
        (blocksMessage version server list).frame .server session.sequence].flatMap
          Frame.encode)) := by
  have short : ∀ message ∈ [stateMessage version server, blocksMessage version server list],
      message.payload.length < UInt32.size := by
    simpa using ⟨stateFits.lt, blocksFit.lt⟩
  rw [sendReply_eq_send role settled stateWritten blocksWritten, send_eq writable short, role]
  rfl

/-! ## Receiving -/

variable {missing : Bytes} {number : UInt32}

/-- The next frame that a session receives, taken as the frame of a message of its kind from the
other end. The session is starved until the frame has arrived. -/
theorem Receives.expect_cases {role : Role} {others : List Frame} (sender : role ≠ session.role)
    (fits : message.Fits limit) (lasting : message.kind ≠ .closedown)
    (received : session.Receives limit (message.frame role number :: others) missing) :
    (∃ arrivals buffer pending,
      (expect message.kind).Gives session
        (.ok (message.frame role number) (session.reading arrivals buffer pending)) ∧
      (session.reading arrivals buffer pending).Receives limit others missing) ∨
    ((expect message.kind).Starved session ∧ missing ≠ []) := by
  rcases received.nextFrame_cases with
    ⟨first, behind, arrivals, buffer, pending, same, gives, rest⟩ | ⟨starved, complete⟩
  · obtain ⟨rfl, rfl⟩ := List.cons.inj same
    refine .inl ⟨arrivals, buffer, pending, ?_, rest⟩
    refine gives.expect lasting (message.kind?_frame role number) ?_
    rw [fits.isToClient_frame]
    have direction : session.role = (if role = .server then .client else .server) := by
      cases role <;> cases own : session.role <;> simp_all
    have kept : (session.reading arrivals buffer pending).role = session.role := rfl
    rw [kept, direction]
    cases role <;> rfl
  · refine .inr ⟨starved.bind _, ?_⟩
    intro arrived
    cases complete arrived

/-- Receiving requests whose frame was received, if the client has not closed down. -/
def takeRequests (version : Version) : Option Frame → Operation (Option RequestBlock)
  | none => return none
  | some frame => do
    modify fun session => { session with sequence := frame.header.sequence }
    return some (← ofResult (RequestBlock.decode version frame.payload))

/-- A server behind the handshake waits for requests, or for the client to close down. -/
theorem receiveRequests_eq (role : session.role = .server)
    (settled : session.version = some version) :
    receiveRequests session =
      (unlessClosed (expect .requestBlock) >>= takeRequests version) session := by
  rw [receiveRequests, requireRole_bind role, requireVersion_bind settled]
  refine congrFun (congrArg _ (funext fun frame => ?_)) session
  cases frame <;> rfl

/-- Receiving requests goes on with the frame that is given. -/
theorem receiveRequests_of_expect {frame : Frame} {next : Session} (role : session.role = .server)
    (settled : session.version = some version)
    (given : expect .requestBlock session = .ok frame next) :
    receiveRequests session = takeRequests version (some frame) next := by
  have taken : unlessClosed (expect .requestBlock) session = .ok (some frame) next := by
    simp only [unlessClosed, given]
  rw [receiveRequests_eq role settled, bind_of_eq_ok taken]

/-- Without a frame, receiving requests fails unless the client has closed down. -/
theorem receiveRequests_of_expect_error {failure : Failure} {next : Session}
    (role : session.role = .server) (settled : session.version = some version)
    (failed : expect .requestBlock session = .error failure next) :
    receiveRequests session =
      match failure with
      | .connectionClosed => .ok none next
      | failure => .error failure next := by
  rw [receiveRequests_eq role settled]
  cases failure <;> simp only [bind, EStateM.bind, unlessClosed, failed, takeRequests, pure_apply]

/-- Requests are received once their frame has arrived, and their number becomes that of the
session. -/
theorem receiveRequests_cases {block : RequestBlock} {payload : Bytes}
    (role : session.role = .server) (settled : session.version = some version)
    (written : block.encode version = .ok payload)
    (fits : (requestMessage version block).Fits limit)
    (received : session.Receives limit [(requestMessage version block).frame .client number] missing) :
    (∃ arrivals buffer pending,
      receiveRequests.Gives session (.ok (some (block.onWire version))
        { session.reading arrivals buffer pending with sequence := number }) ∧
      (session.reading arrivals buffer pending).Receives limit [] missing) ∨
    (receiveRequests.Starved session ∧ missing ≠ []) := by
  have sender : Role.client ≠ session.role := by simp [role]
  have checked (later : List Arrival) : receiveRequests (session.arriving later) =
      (unlessClosed (expect .requestBlock) >>= takeRequests version) (session.arriving later) :=
    @receiveRequests_eq (session.arriving later) version role settled
  rcases received.expect_cases sender fits nofun with
    ⟨arrivals, buffer, pending, gives, rest⟩ | ⟨starved, waiting⟩
  · refine .inl ⟨arrivals, buffer, pending, .of_eq checked (gives.unlessClosed.bind ?_), rest⟩
    intro later
    have carried : ((requestMessage version block).frame .client number).payload = payload := by
      simp only [Message.frame, requestMessage, written]
      rfl
    rw [takeRequests, modify_bind, carried, RequestBlock.decode_encode written, ofResult_ok_bind]
    rfl
  · exact .inr ⟨.of_eq checked (starved.unlessClosed.bind _), waiting⟩

/-- A server that receives nothing is starved when it waits for requests. -/
theorem receiveRequests_starved (role : session.role = .server)
    (settled : session.version = some version) (received : session.Receives limit [] missing) :
    receiveRequests.Starved session :=
  .of_eq (fun later => @receiveRequests_eq (session.arriving later) version role settled)
    (Starved.bind (Starved.unlessClosed (received.starved.bind _)) _)

/-- What the client makes of a reply: the state of the server and the data blocks, or the failure to
read the blocks. -/
def replyOutcome (version : Version) (server : ServerState) (list : BlockList) :
    Except Failure (ServerState × BlockList) :=
  (BlockList.decode version (list.encode version).written).map (server.onWire version, ·)

/-- What an operation gives is a result with the session that it leaves. -/
def resulting {α : Type} (outcome : Except Failure α) (session : Session) :
    EStateM.Result Failure Session α :=
  match outcome with
  | .ok value => .ok value session
  | .error failure => .error failure session

/-- Receiving the data blocks of a reply whose state was received. -/
def receiveBlocks (version : Version) (server : ServerState) :
    Operation (ServerState × BlockList) := do
  let frame ← expect .blockList
  requireSequence frame
  let list ← ofResult (BlockList.decode version frame.payload)
  return (server, list)

/-- Receiving a reply whose first frame was received. -/
def receiveBehind (version : Version) (frame : Frame) : Operation (ServerState × BlockList) := do
  requireSequence frame
  let server ← ofResult (ServerState.decode version frame.payload)
  let stated := (← get).serverVersion
  if server.version ≠ stated then
    throw (.protocol .state (.serverVersionChanged stated server.version))
  else receiveBlocks version server

/-- A client behind the handshake waits for the state in front of a reply. -/
theorem receiveReply_eq (role : session.role = .client) (settled : session.version = some version) :
    receiveReply session = (expect .serverState >>= receiveBehind version) session := by
  rw [receiveReply, requireRole_bind role, requireVersion_bind settled]
  rfl

/-- A client that receives nothing is starved when it waits for a reply. -/
theorem receiveReply_starved (role : session.role = .client)
    (settled : session.version = some version) (received : session.Receives limit [] missing) :
    receiveReply.Starved session :=
  .of_eq (fun later => @receiveReply_eq (session.arriving later) version role settled)
    ((received.starved.bind _).bind _)

/-- Behind a state that is that of the handshake's server, the data blocks are received. -/
theorem receiveBehind_eq {server : ServerState} {state : Bytes}
    (numbered : session.sequence = number) (stated : session.serverVersion = server.version)
    (written : server.encode version = .ok state) :
    receiveBehind version ((stateMessage version server).frame .server number) session =
      receiveBlocks version (server.onWire version) session := by
  have carried : ((stateMessage version server).frame .server number).payload = state := by
    simp only [Message.frame, stateMessage, written]
    rfl
  have decoded : ServerState.decode version state = .ok (server.onWire version) :=
    ServerState.decode_encode (fun _ => rfl) written
  have unchanged : (server.onWire version).version = session.serverVersion := stated.symm
  have same : ((stateMessage version server).frame .server number).header.sequence =
      session.sequence := numbered.symm
  rw [receiveBehind, requireSequence_bind same, carried, decoded, ofResult_ok_bind, get_bind,
    unchanged, if_neg (not_not_intro rfl)]

/-- Data blocks are received once their frame has arrived, whether they can be read or not. -/
theorem receiveBlocks_cases {list : BlockList} {server : ServerState}
    (role : session.role = .client) (numbered : session.sequence = number)
    (fits : (blocksMessage version server list).Fits limit)
    (received : session.Receives limit
      [(blocksMessage version server list).frame .server number] missing) :
    (∃ arrivals buffer pending,
      (receiveBlocks version (server.onWire version)).Gives session
        (resulting (replyOutcome version server list)
          (session.reading arrivals buffer pending)) ∧
      (session.reading arrivals buffer pending).Receives limit [] missing) ∨
    ((receiveBlocks version (server.onWire version)).Starved session ∧ missing ≠ []) := by
  have sender : Role.server ≠ session.role := by simp [role]
  rcases received.expect_cases sender fits nofun with
    ⟨arrivals, buffer, pending, gives, rest⟩ | ⟨starved, waiting⟩
  · refine .inl ⟨arrivals, buffer, pending, gives.bind fun later => ?_, rest⟩
    have same : ((blocksMessage version server list).frame .server number).header.sequence =
        ((session.reading arrivals buffer pending).arriving later).sequence := numbered.symm
    have carried : ((blocksMessage version server list).frame .server number).payload =
        (list.encode version).written := rfl
    rw [requireSequence_bind same, carried, replyOutcome]
    cases BlockList.decode version (list.encode version).written <;> rfl
  · exact .inr ⟨starved.bind _, waiting⟩

/-- A reply is received once both of its frames have arrived. Blocks that cannot be read are taken
all the same. -/
theorem receiveReply_cases {list : BlockList} {server : ServerState} {state : Bytes}
    (role : session.role = .client) (settled : session.version = some version)
    (numbered : session.sequence = number) (stated : session.serverVersion = server.version)
    (written : server.encode version = .ok state) (stateFits : (stateMessage version server).Fits limit)
    (blocksFit : (blocksMessage version server list).Fits limit)
    (received : session.Receives limit [(stateMessage version server).frame .server number,
      (blocksMessage version server list).frame .server number] missing) :
    (∃ arrivals buffer pending,
      receiveReply.Gives session (resulting (replyOutcome version server list)
        (session.reading arrivals buffer pending)) ∧
      (session.reading arrivals buffer pending).Receives limit [] missing) ∨
    (receiveReply.Starved session ∧ missing ≠ []) := by
  have sender : Role.server ≠ session.role := by simp [role]
  have checked (later : List Arrival) : receiveReply (session.arriving later) =
      (expect .serverState >>= receiveBehind version) (session.arriving later) :=
    @receiveReply_eq (session.arriving later) version role settled
  rcases received.expect_cases sender stateFits nofun with
    ⟨arrivals, buffer, pending, gives, rest⟩ | ⟨starved, waiting⟩
  · let next := session.reading arrivals buffer pending
    have goesOn (later : List Arrival) :
        receiveBehind version ((stateMessage version server).frame .server number)
            (next.arriving later) =
          receiveBlocks version (server.onWire version) (next.arriving later) :=
      receiveBehind_eq numbered stated written
    rcases @receiveBlocks_cases limit next version missing number list server role numbered blocksFit
      rest with ⟨arrivals, buffer, pending, givesBlocks, rest⟩ | ⟨starved, waiting⟩
    · exact .inl ⟨arrivals, buffer, pending, .of_eq checked (gives.bind (.of_eq goesOn givesBlocks)),
        rest⟩
    · exact .inr ⟨.of_eq checked (gives.bind_starved (.of_eq goesOn starved)), waiting⟩
  · exact .inr ⟨.of_eq checked (starved.bind _), waiting⟩

end Session

end SignalAccess

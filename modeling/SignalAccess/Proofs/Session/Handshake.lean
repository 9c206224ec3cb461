import SignalAccess.Proofs.Session.Operation
import SignalAccess.Proofs.Wire.Version

/-!
# What a handshake settles

The two ends of a connection open a session with each other when the pieces that each of them reads
are those of the bytes that the other one writes. A handshake that succeeds on both ends leaves both
of them with the lower version, without anything to be read, and the client with the version that
the server stated.
-/

namespace SignalAccess

open Session Operation

/-- A connection on which pieces arrive, and on which nothing was written yet. -/
def Connection.carrying (pieces : List Bytes) : Connection :=
  ⟨pieces.map .piece, [], none, false⟩

/-- A handshake that succeeded on both ends. However the bytes were cut into pieces, none of which
is empty, each end read what the other one wrote. -/
def Handshake (client : ClientState) (server : ServerState) (clientLimit serverLimit : UInt32)
    (clientEnd serverEnd : Session) : Prop :=
  ∃ (toClient toServer : List Bytes) (stated : ServerState) (seen : ClientState),
    [] ∉ toClient ∧ [] ∉ toServer ∧
    openAsClient client (opened .client (.carrying toClient) clientLimit) = .ok stated clientEnd ∧
    openAsServer server (opened .server (.carrying toServer) serverLimit) = .ok seen serverEnd ∧
    toClient.flatten = serverEnd.connection.written ∧
    toServer.flatten = clientEnd.connection.written

namespace Session

/-- The payload of a message whose header is valid keeps to the limit. -/
theorem Message.within_of_validate {limit : UInt32} {role : Role} {number : UInt32}
    (message : Message) (short : message.payload.length < UInt32.size)
    (valid : (message.frame role number).header.validate limit = .ok ()) :
    message.payload.length ≤ limit.toNat := by
  have size : (UInt32.ofNat message.payload.length).toNat = message.payload.length :=
    UInt32.toNat_ofNat_of_lt' short
  have known : (message.frame role number).header.kind?.isNone = false := by
    rw [kind?_frame]
    rfl
  have faultless := FrameHeader.validate_eq_ok_iff.mp valid
  have within : ¬ limit < (message.frame role number).header.length := by
    intro long
    simp [FrameHeader.fault?, known, long] at faultless
  have announced : (message.frame role number).header.length =
      UInt32.ofNat message.payload.length := rfl
  rw [announced, UInt32.lt_iff_toNat_lt, size] at within
  exact Nat.le_of_not_lt within

/-- An end that has settled a version and has nothing to read. -/
structure Settled (role : Role) (version : Version) (limit : UInt32) (session : Session) : Prop where
  role : session.role = role
  version : session.version = some version
  writable : session.connection.writeFailure = none
  sequence : session.sequence = 0
  receives : session.Receives limit [] []

variable {limit : UInt32}

/-- An end that has read nothing yet receives the frames of which pieces have arrived. -/
theorem receives_of_fresh {session : Session} {frames : List Frame} {pieces : List Bytes}
    {missing : Bytes} (fresh : session.buffer = .empty limit) (none : session.pending = [])
    (arrived : session.connection.arrivals = pieces.map .piece) (nonempty : [] ∉ pieces)
    (admitted : ∀ frame ∈ frames, frame.Admitted limit)
    (stream : pieces.flatten ++ missing = frames.flatMap Frame.encode) :
    session.Receives limit frames missing := by
  have held : (FrameBuffer.holding limit []).drain = (.ok [], session.buffer) :=
    fresh ▸ FrameBuffer.drain_holding_nil limit
  refine ⟨[], frames, pieces, by simp [none], admitted, held, arrived, nonempty, ?_⟩
  rwa [List.nil_append]

/-- An end on whose connection the frame of one message arrives, in whatever pieces, is given that
frame and has nothing to read then. -/
theorem expect_opened {session : Session} {role : Role} {message : Message} {pieces : List Bytes}
    (fresh : session.buffer = .empty limit) (none : session.pending = [])
    (arrived : session.connection.arrivals = pieces.map .piece) (nonempty : [] ∉ pieces)
    (stream : pieces.flatten = (message.frame role 0).encode) (sender : role ≠ session.role)
    (lasting : message.kind ≠ .closedown) (fits : message.Fits limit) :
    ∃ arrivals buffer pending,
      expect message.kind session =
        .ok (message.frame role 0) (session.reading arrivals buffer pending) ∧
      (session.reading arrivals buffer pending).Receives limit [] [] := by
  have received : session.Receives limit [message.frame role 0] [] := by
    refine receives_of_fresh fresh none arrived nonempty ?_ (by simp [stream])
    intro frame member
    rw [List.mem_singleton.mp member]
    exact fits.admitted role 0
  rcases received.expect_cases sender fits lasting with
    ⟨arrivals, buffer, pending, gives, rest⟩ | ⟨-, waiting⟩
  · exact ⟨arrivals, buffer, pending, gives.eq, rest⟩
  · exact absurd rfl waiting

/-- An end that succeeds in reading a frame admits the payload that was sent: a header that announces
too much is refused, even if more of the stream is still to come. -/
theorem within_of_expect {session next : Session} {role : Role} {message : Message}
    {pieces : List Bytes} {kind : MessageKind} {frame : Frame}
    (fresh : session.buffer = .empty limit) (none : session.pending = [])
    (arrived : session.connection.arrivals = pieces.map .piece) (nonempty : [] ∉ pieces)
    (stream : pieces.flatten <+: (message.frame role 0).encode)
    (short : message.payload.length < UInt32.size)
    (given : expect kind session = .ok frame next) : message.payload.length ≤ limit.toNat := by
  have held : (FrameBuffer.holding limit []).drain = (.ok [], session.buffer) :=
    fresh ▸ FrameBuffer.drain_holding_nil limit
  have taken := nextFrame_of_expect given
  rw [nextFrame_of_pending_nil none, arrived] at taken
  obtain ⟨front, _, _, begun, drained⟩ := exists_read_of_awaitFrame held nonempty taken
  have valid := FrameBuffer.validate_of_drain (begun.trans stream) drained
  exact message.within_of_validate short valid

/-- An end that succeeds in reading a frame was given the frame that was sent. -/
theorem expect_only {session next : Session} {role : Role} {message : Message} {pieces : List Bytes}
    {frame : Frame} (fresh : session.buffer = .empty limit) (none : session.pending = [])
    (arrived : session.connection.arrivals = pieces.map .piece) (nonempty : [] ∉ pieces)
    (stream : pieces.flatten = (message.frame role 0).encode)
    (sender : role ≠ session.role) (lasting : message.kind ≠ .closedown)
    (flagged : message.flags = 0 ∨ message.flags = FrameHeader.hasFailures)
    (short : message.payload.length < UInt32.size)
    (given : expect message.kind session = .ok frame next) :
    frame = message.frame role 0 ∧ ∃ arrivals buffer pending,
      next = session.reading arrivals buffer pending ∧ next.Receives limit [] [] := by
  have front : pieces.flatten <+: (message.frame role 0).encode := stream ▸ List.prefix_rfl
  have fits : message.Fits limit :=
    ⟨flagged, within_of_expect fresh none arrived nonempty front short given⟩
  obtain ⟨arrivals, buffer, pending, gives, rest⟩ :=
    expect_opened fresh none arrived nonempty stream sender lasting fits
  obtain ⟨rfl, rfl⟩ : message.frame role 0 = frame ∧
      session.reading arrivals buffer pending = next := by
    simpa only [EStateM.Result.ok.injEq] using gives.symm.trans given
  exact ⟨rfl, arrivals, buffer, pending, rfl, rest⟩

/-! ## What succeeded -/

/-- A result that succeeds gives its value and leaves the session as it was. -/
theorem ofResult_eq_ok {α : Type} {result : Except Failure α} {session next : Session} {value : α}
    (succeeded : ofResult result session = .ok value next) :
    result = .ok value ∧ session = next := by
  cases result with
  | error failure => cases succeeded
  | ok value =>
    cases succeeded
    exact ⟨rfl, rfl⟩

/-- A message that was sent fits a frame, and the connection admits writes. -/
theorem send_eq_ok {session next : Session} {message : Message}
    (sent : send [message] session = .ok ⟨⟩ next) :
    session.connection.writeFailure = none ∧ message.payload.length < UInt32.size ∧
      next = session.writing (message.frame session.role session.sequence).encode := by
  by_cases short : message.payload.length < UInt32.size
  · have all : ∀ other ∈ [message], other.payload.length < UInt32.size := by simpa using short
    cases writable : session.connection.writeFailure with
    | none =>
      rw [send_eq writable all] at sent
      cases sent
      exact ⟨rfl, short, by simp⟩
    | some code =>
      simp [send, mapM_frame all, Connection.write, writable] at sent
  · have long : session.frame message =
        .error (.protocol .header (.payloadTooLong message.payload.length)) :=
      if_neg short
    have none : [message].mapM session.frame =
        .error (.protocol .header (.payloadTooLong message.payload.length)) := by
      rw [List.mapM_cons, long]
      rfl
    rw [send, get_bind, none, ofResult_error_bind] at sent
    cases sent

/-- What a client has done when it has opened a session: it stated who it is, and then it read what
the server stated. -/
theorem openAsClient_eq_ok {client : ClientState} {session last : Session} {stated : ServerState}
    (role : session.role = .client) (opened : openAsClient client session = .ok stated last) :
    ∃ payload frame next, client.encode client.version = .ok payload ∧
      session.connection.writeFailure = none ∧ payload.length < UInt32.size ∧
      expect .serverState (session.writing
        (Message.frame .client session.sequence ⟨.clientState, 0, payload⟩).encode) =
          .ok frame next ∧
      ServerState.decode client.version frame.payload = .ok stated ∧
      last = settle client.version stated.version next := by
  rw [openAsClient, requireRole_bind role] at opened
  obtain ⟨payload, _, encoded, opened⟩ := bind_eq_ok opened
  obtain ⟨written, rfl⟩ := ofResult_eq_ok encoded
  obtain ⟨_, _, sent, opened⟩ := bind_eq_ok opened
  obtain ⟨writable, short, rfl⟩ := send_eq_ok sent
  obtain ⟨frame, next, expected, opened⟩ := bind_eq_ok opened
  obtain ⟨server, _, read, opened⟩ := bind_eq_ok opened
  obtain ⟨decoded, rfl⟩ := ofResult_eq_ok read
  rw [modify_bind] at opened
  cases opened
  rw [role] at expected
  exact ⟨payload, frame, next, written, writable, short, expected, decoded, rfl⟩

/-- What a server has done when it has opened a session: it read who the client is, and then it
stated who it is itself. -/
theorem openAsServer_eq_ok {server : ServerState} {session last : Session} {seen : ClientState}
    (role : session.role = .server) (opened : openAsServer server session = .ok seen last) :
    ∃ payload frame next, expect .clientState session = .ok frame next ∧
      ClientState.decode .current frame.payload = .ok seen ∧
      server.encode (Version.negotiated seen.version server.version) = .ok payload ∧
      next.connection.writeFailure = none ∧ payload.length < UInt32.size ∧
      last = (settle seen.version server.version next).writing
        (Message.frame next.role next.sequence
          ⟨.serverState, replyFlags server, payload⟩).encode := by
  rw [openAsServer, requireRole_bind role] at opened
  obtain ⟨frame, next, expected, opened⟩ := bind_eq_ok opened
  obtain ⟨client, _, read, opened⟩ := bind_eq_ok opened
  obtain ⟨decoded, rfl⟩ := ofResult_eq_ok read
  rw [modify_bind] at opened
  obtain ⟨payload, _, encoded, opened⟩ := bind_eq_ok opened
  obtain ⟨written, rfl⟩ := ofResult_eq_ok encoded
  obtain ⟨_, _, sent, opened⟩ := bind_eq_ok opened
  obtain ⟨writable, short, rfl⟩ := send_eq_ok sent
  cases opened
  exact ⟨payload, frame, next, expected, decoded, written, writable, short, rfl⟩

/-- A server sets no flag in a reply but that of failures. -/
theorem replyFlags_cases (server : ServerState) :
    replyFlags server = 0 ∨ replyFlags server = FrameHeader.hasFailures := by
  unfold replyFlags
  split
  · exact .inl rfl
  · exact .inr rfl

end Session

/-- A handshake leaves both ends settled with the lower of the two versions, and the client with the
version of the server. Each end is given the one frame that the other one sent, so it reads what the
other one stated. -/
theorem Handshake.settled {client : ClientState} {server : ServerState}
    {clientLimit serverLimit : UInt32} {clientEnd serverEnd : Session}
    (handshake : Handshake client server clientLimit serverLimit clientEnd serverEnd) :
    clientEnd.Settled .client (Version.negotiated client.version server.version) clientLimit ∧
      clientEnd.serverVersion = server.version ∧
      serverEnd.Settled .server (Version.negotiated client.version server.version) serverLimit := by
  obtain ⟨toClient, toServer, stated, seen, clientNonempty, serverNonempty, clientOpened,
    serverOpened, clientStream, serverStream⟩ := handshake
  obtain ⟨clientPayload, clientFrame, clientNext, clientWritten, -, clientShort, clientExpected,
    statedDecoded, rfl⟩ := openAsClient_eq_ok rfl clientOpened
  obtain ⟨serverPayload, serverFrame, serverNext, serverExpected, seenDecoded, serverWritten, -,
    serverShort, rfl⟩ := openAsServer_eq_ok rfl serverOpened
  -- What an end wrote does not depend on what it read, so the streams are known before the frames.
  obtain ⟨_, _, _, clientReading⟩ :=
    exists_reading_of_nextFrame (nextFrame_of_expect clientExpected)
  obtain ⟨_, _, _, serverReading⟩ :=
    exists_reading_of_nextFrame (nextFrame_of_expect serverExpected)
  let hello : Message := ⟨.clientState, 0, clientPayload⟩
  let answer : Message := ⟨.serverState, replyFlags server, serverPayload⟩
  have helloStream : toServer.flatten = (hello.frame .client 0).encode := by
    rw [serverStream, clientReading]
    rfl
  have answerStream : toClient.flatten = (answer.frame .server 0).encode := by
    rw [clientStream, serverReading]
    rfl
  obtain ⟨rfl, _, _, _, rfl, serverReceives⟩ :=
    expect_only rfl rfl rfl serverNonempty helloStream (by simp [opened]) nofun (.inl rfl)
      clientShort serverExpected
  obtain ⟨rfl, _, _, _, rfl, clientReceives⟩ :=
    expect_only rfl rfl rfl clientNonempty answerStream (by simp [opened, writing]) nofun
      (replyFlags_cases server) serverShort clientExpected
  have seenIs : seen = client.onWire client.version := by
    have read := ClientState.decode_encode (Version.has_min_current client.version) clientWritten
    exact Except.ok.inj (seenDecoded.symm.trans read)
  have statedIs : stated = server.onWire (Version.negotiated client.version server.version) := by
    subst seenIs
    have read := ServerState.decode_encode
      (Version.has_min_negotiated client.version server.version) serverWritten
    exact Except.ok.inj (statedDecoded.symm.trans read)
  subst seenIs statedIs
  exact ⟨⟨rfl, rfl, rfl, rfl, clientReceives⟩, rfl, ⟨rfl, rfl, rfl, rfl, serverReceives⟩⟩

end SignalAccess

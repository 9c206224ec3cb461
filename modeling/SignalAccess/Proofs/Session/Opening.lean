import SignalAccess.Proofs.Session.Progress

/-!
# Opening a session piece by piece

While the stream of its peer is still arriving, an end of a handshake either waits for the frame that
it needs or has succeeded. A client writes who it is before it waits; a server writes nothing before
it has been given the client's state, and its whole answer then.

An end that waits is an operation that ran out of arrivals. What it has written by then does not
depend on how it ended, because reading writes nothing; and it did not succeed, because a frame that
is given is given whatever arrives later.
-/

namespace SignalAccess

open Session Operation

namespace Session

namespace Operation

variable {α β : Type} {operation : Operation α} {f : α → Operation β} {session next : Session}

/-! ## Writing nothing -/

/-- An operation that writes nothing, whatever it gives. -/
def Silent (operation : Operation α) : Prop :=
  ∀ session, (operation.after session).connection.written = session.connection.written

/-- Operations that write nothing write nothing in a row. -/
theorem Silent.bind (first : operation.Silent) (others : ∀ a, (f a).Silent) :
    Silent (operation >>= f) := by
  have leads : (operation >>= f : Operation β).Leads fun session next =>
      next.connection.written = session.connection.written :=
    Leads.bind (fun first second => second.trans first) first others
  exact leads

/-- Giving a value writes nothing. -/
theorem silent_pure (a : α) : Silent (pure a : Operation α) := fun _ => rfl

/-- Changing a session writes nothing if it leaves what was written. -/
theorem silent_modify {g : Session → Session}
    (kept : ∀ session, (g session).connection.written = session.connection.written) :
    Silent (modify g : Operation PUnit) := kept

/-- Reading writes nothing. -/
theorem Advancing.silent (advancing : operation.Advancing) : operation.Silent :=
  fun session => (advancing session).written_eq

/-- Taking a result writes nothing. -/
theorem silent_ofResult (result : Except Failure α) : (ofResult result).Silent :=
  (advancing_ofResult result).silent

/-- Waiting for a frame writes nothing. -/
theorem silent_expect (kind : MessageKind) : (expect kind).Silent := (advancing_expect kind).silent

/-! ## A frame that is given stays given -/

/-- An operation that gives a value has it as its outcome. -/
theorem Gives.outcome_eq {a : α} (gives : operation.Gives session (.ok a next)) :
    operation.outcome session = .ok a := by
  rw [outcome, gives.eq]

/-- An operation that gives a value leaves the session that it gives with it. -/
theorem Gives.after_eq {a : α} (gives : operation.Gives session (.ok a next)) :
    operation.after session = next := by
  rw [after, gives.eq]

/-- A frame that what has arrived completes is given whatever arrives later, by induction on what has
arrived. -/
theorem awaitFrame_arriving {arrivals : List Arrival} {frame : Frame}
    (given : awaitFrame arrivals session = .ok frame next) (later : List Arrival) :
    awaitFrame (arrivals ++ later) (session.arriving later) = .ok frame (next.arriving later) := by
  induction arrivals generalizing session with
  | nil => cases idle : session.buffer.ensureIdle <;> simp [awaitFrame, endOfStream, idle] at given
  | cons arrival arrivals inductionHypothesis =>
    cases arrival with
    | failure code => simp [awaitFrame] at given
    | piece bytes =>
      cases bytes with
      | nil =>
        cases idle : session.buffer.ensureIdle <;> simp [awaitFrame, endOfStream, idle] at given
      | cons first others =>
        have some := List.cons_ne_nil first others
        rw [awaitFrame_piece some] at given
        rw [List.cons_append, awaitFrame_piece some]
        have sameBuffer : (session.arriving later).buffer = session.buffer := rfl
        rw [sameBuffer]
        rcases pushed : session.buffer.push (first :: others) with
          ⟨failure | _ | ⟨completed, pending⟩, buffer⟩
        · simp [pushed] at given
        · rw [pushed] at given
          exact inductionHypothesis given
        · simp only [pushed, EStateM.Result.ok.injEq] at given ⊢
          obtain ⟨rfl, rfl⟩ := given
          exact ⟨rfl, rfl⟩

/-- A frame that is there is given whatever arrives later. -/
theorem gives_nextFrame {frame : Frame} (given : nextFrame session = .ok frame next) :
    nextFrame.Gives session (.ok frame next) := by
  intro later
  cases waiting : session.pending with
  | nil =>
    have none : (session.arriving later).pending = [] := waiting
    rw [nextFrame_of_pending_nil waiting] at given
    rw [nextFrame_of_pending_nil none]
    exact awaitFrame_arriving given later
  | cons first others =>
    have some : (session.arriving later).pending = first :: others := waiting
    rw [nextFrame_of_pending_cons waiting] at given
    rw [nextFrame_of_pending_cons some]
    cases given
    rfl

/-- A frame of the kind that is waited for is given whatever arrives later. -/
theorem gives_expect {kind : MessageKind} {frame : Frame}
    (given : expect kind session = .ok frame next) :
    (expect kind).Gives session (.ok frame next) := by
  obtain ⟨taken, goesOn, directed, kinded⟩ := checked_of_expect given
  have lasting : kind ≠ .closedown := by
    rintro rfl
    simp [FrameHeader.isClosedown, kinded] at goesOn
  exact (gives_nextFrame taken).expect lasting kinded directed

/-- An end that is starved of a frame has not been given one. -/
theorem Starved.exists_error {kind : MessageKind} (starved : (expect kind).Starved session) :
    ∃ failure next, expect kind session = .error failure next := by
  cases given : expect kind session with
  | ok frame next => exact absurd (gives_expect given).decided starved.not_decided
  | error failure next => exact ⟨failure, next, rfl⟩

/-- An end that waits for a frame has written nothing behind what it had written before. -/
theorem Starved.written_after {kind : MessageKind} (starved : (expect kind).Starved session)
    (f : Frame → Operation β) :
    ((expect kind >>= f).after session).connection.written = session.connection.written := by
  obtain ⟨failure, next, failed⟩ := starved.exists_error
  have kept := silent_expect kind session
  rw [after, failed] at kept
  rw [after_bind_of_error failed, kept]

end Operation

/-- Whole frames that arrive in one piece at a session with nothing to read are given one by one: the
first of them now, and the others are pending. -/
theorem expect_piece {session : Session} {limit : UInt32} {kind : MessageKind} {frame : Frame}
    {others : List Frame} {arrivals : List Arrival} (fresh : session.buffer = .empty limit) (none : session.pending = [])
    (arrived : session.connection.arrivals =
      .piece ((frame :: others).flatMap Frame.encode) :: arrivals)
    (admitted : ∀ other ∈ frame :: others, other.Admitted limit) (lasting : kind ≠ .closedown)
    (kinded : frame.header.kind? = some kind)
    (directed : frame.header.isToClient = (session.role == .client)) :
    expect kind session = .ok frame (session.reading arrivals (.empty limit) others) := by
  have some : (frame :: others).flatMap Frame.encode ≠ [] := by
    simp [Frame.encode, FrameHeader.encode]
  have held : (FrameBuffer.holding limit []).drain = (.ok [], session.buffer) :=
    fresh ▸ FrameBuffer.drain_holding_nil limit
  have pushed := FrameBuffer.push_of_drain held ((frame :: others).flatMap Frame.encode)
  rw [List.nil_append, FrameBuffer.drain_encode_whole admitted] at pushed
  have taken : nextFrame session = .ok frame (session.reading arrivals (.empty limit) others) := by
    rw [nextFrame_of_pending_nil none, arrived, awaitFrame_piece some, pushed]
  exact ((gives_nextFrame taken).expect lasting kinded directed).eq

/-- The frame of a message that fits, if it arrives in a piece of its own from the other end, is
given. -/
theorem expect_message {session : Session} {limit number : UInt32} {message : Message} {role : Role}
    {arrivals : List Arrival} (fits : message.Fits limit) (sender : role ≠ session.role)
    (lasting : message.kind ≠ .closedown) (fresh : session.buffer = .empty limit)
    (none : session.pending = [])
    (arrived : session.connection.arrivals =
      .piece (message.frame role number).encode :: arrivals) :
    expect message.kind session =
      .ok (message.frame role number) (session.reading arrivals (.empty limit) []) := by
  refine expect_piece fresh none ?_ ?_ lasting (message.kind?_frame role number) ?_
  · simpa using arrived
  · intro frame member
    rw [List.mem_singleton.mp member]
    exact fits.admitted role number
  · rw [fits.isToClient_frame]
    cases role <;> cases own : session.role <;> simp_all

/-! ## What it takes to succeed -/

/-- The message with which a client opens a session. -/
def helloMessage (client : ClientState) : Message :=
  ⟨.clientState, 0, (client.encode client.version).written⟩

/-- The greeting of a client carries its state as it is encoded. -/
theorem helloMessage_eq {client : ClientState} {payload : Bytes}
    (written : client.encode client.version = .ok payload) :
    helloMessage client = ⟨.clientState, 0, payload⟩ := by
  rw [helloMessage, written]
  rfl

/-- The message with which a server answers a client of some version. -/
def answerMessage (client : Version) (server : ServerState) : Message :=
  stateMessage (Version.negotiated client server.version) server

/-- The answer of a server carries its state as it is encoded, with the flag of its failures. -/
theorem answerMessage_eq {client : Version} {server : ServerState} {payload : Bytes}
    (answered : server.encode (Version.negotiated client server.version) = .ok payload) :
    answerMessage client server = ⟨.serverState, replyFlags server, payload⟩ := by
  rw [answerMessage, stateMessage, answered]
  rfl

/-- Opening a session when the answer of the server was received. -/
def hearAnswer (client : Version) (frame : Frame) : Operation ServerState := do
  let server ← ofResult (ServerState.decode client frame.payload)
  modify (settle client server.version)
  return server

/-- Opening a session when the state of the client was received. -/
def answerHello (server : ServerState) (frame : Frame) : Operation ClientState := do
  let client ← ofResult (ClientState.decode .current frame.payload)
  modify (settle client.version server.version)
  let payload ← ofResult (server.encode (Version.negotiated client.version server.version))
  send [⟨.serverState, replyFlags server, payload⟩]
  return client

variable {limit : UInt32} {session : Session} {pieces : List Bytes} {missing : Bytes}
  {client : ClientState} {server : ServerState} {hello answer : Bytes}

/-- Reading the answer of a server writes nothing. -/
theorem silent_hearAnswer (version : Version) (frame : Frame) : (hearAnswer version frame).Silent :=
  (silent_ofResult _).bind fun server =>
    Silent.bind (silent_modify fun _ => rfl) fun _ => silent_pure server

/-- A client states who it is, and waits for the answer then. -/
theorem openAsClient_eq (role : session.role = .client)
    (writable : session.connection.writeFailure = none) (unused : session.sequence = 0)
    (written : client.encode client.version = .ok hello) (short : hello.length < UInt32.size) :
    openAsClient client session = (expect .serverState >>= hearAnswer client.version)
      (session.writing ((helloMessage client).frame .client 0).encode) := by
  have all : ∀ message ∈ [(⟨.clientState, 0, hello⟩ : Message)],
      message.payload.length < UInt32.size := by
    simpa using short
  rw [openAsClient, requireRole_bind role, written, ofResult_ok_bind, send_bind writable all,
    helloMessage_eq written, role, unused]
  simp only [List.map_cons, List.map_nil, List.flatMap_cons, List.flatMap_nil, List.append_nil]
  rfl

/-- A server waits for the state of the client. -/
theorem openAsServer_eq (role : session.role = .server) :
    openAsServer server session = (expect .clientState >>= answerHello server) session := by
  rw [openAsServer, requireRole_bind role]
  rfl

/-- The client is given the state of the server as far as the lower version has its fields. -/
theorem hearAnswer_eq
    (answered : server.encode (Version.negotiated client.version server.version) = .ok answer) :
    hearAnswer client.version ((answerMessage client.version server).frame .server 0) session =
      .ok (server.onWire (Version.negotiated client.version server.version))
        (settle client.version server.version session) := by
  have carried : ((answerMessage client.version server).frame .server 0).payload = answer := by
    rw [answerMessage_eq answered]
    rfl
  have read := ServerState.decode_encode
    (Version.has_min_negotiated client.version server.version) answered
  rw [hearAnswer, carried, read, ofResult_ok_bind, modify_bind]
  rfl

/-- The server is given the state of the client as far as the client's version has its fields, and
answers. -/
theorem answerHello_eq (role : session.role = .server)
    (writable : session.connection.writeFailure = none) (unused : session.sequence = 0)
    (written : client.encode client.version = .ok hello)
    (answered : server.encode (Version.negotiated client.version server.version) = .ok answer)
    (short : answer.length < UInt32.size) :
    answerHello server ((helloMessage client).frame .client 0) session =
      .ok (client.onWire client.version) ((settle client.version server.version session).writing
        ((answerMessage client.version server).frame .server 0).encode) := by
  have carried : ((helloMessage client).frame .client 0).payload = hello := by
    rw [helloMessage_eq written]
    rfl
  have read := ClientState.decode_encode (Version.has_min_current client.version) written
  have all : ∀ message ∈ [(⟨.serverState, replyFlags server, answer⟩ : Message)],
      message.payload.length < UInt32.size := by
    simpa using short
  have own : (client.onWire client.version).version = client.version := rfl
  have writableNext :
      (settle client.version server.version session).connection.writeFailure = none := writable
  have sameRole : (settle client.version server.version session).role = .server := role
  have sameNumber : (settle client.version server.version session).sequence = 0 := unused
  rw [answerHello, carried, read, ofResult_ok_bind, modify_bind, own, answered, ofResult_ok_bind,
    send_bind writableNext all, sameRole, sameNumber, answerMessage_eq answered]
  simp

/-- Whatever has arrived, a client has written who it is, and nothing else. -/
theorem written_after_openAsClient (written : client.encode client.version = .ok hello)
    (short : hello.length < UInt32.size) :
    ((openAsClient client).after (opened .client (.carrying pieces) limit)).connection.written =
      ((helloMessage client).frame .client 0).encode := by
  have silent := (silent_expect .serverState).bind (silent_hearAnswer client.version)
  rw [after, openAsClient_eq rfl rfl rfl written short]
  exact silent _

/-- A client to which a part of the answer has arrived waits for the rest; one to which all of it has
arrived has opened the session. -/
theorem openAsClient_cases (written : client.encode client.version = .ok hello)
    (short : hello.length < UInt32.size)
    (answered : server.encode (Version.negotiated client.version server.version) = .ok answer)
    (fits : (answerMessage client.version server).Fits limit) (nonempty : [] ∉ pieces)
    (stream : pieces.flatten ++ missing =
      ((answerMessage client.version server).frame .server 0).encode) :
    (missing = [] ∧ ∃ last,
      (openAsClient client).Gives (opened .client (.carrying pieces) limit)
        (.ok (server.onWire (Version.negotiated client.version server.version)) last) ∧
      last.version = some (Version.negotiated client.version server.version) ∧
      last.connection.written = ((helloMessage client).frame .client 0).encode) ∨
    (missing ≠ [] ∧ (openAsClient client).Starved (opened .client (.carrying pieces) limit)) := by
  let sent := (opened .client (.carrying pieces) limit).writing
    ((helloMessage client).frame .client 0).encode
  have goesOn (later : List Arrival) :
      openAsClient client ((opened .client (.carrying pieces) limit).arriving later) =
        (expect .serverState >>= hearAnswer client.version) (sent.arriving later) :=
    openAsClient_eq rfl rfl rfl written short
  have received : sent.Receives limit [(answerMessage client.version server).frame .server 0]
      missing := by
    refine receives_of_fresh rfl rfl rfl nonempty ?_ (by simpa using stream)
    intro frame member
    rw [List.mem_singleton.mp member]
    exact fits.admitted .server 0
  have sender : Role.server ≠ sent.role := nofun
  rcases received.expect_cases sender fits nofun with
    ⟨arrivals, buffer, pending, gives, rest⟩ | ⟨starved, waiting⟩
  · let last := settle client.version server.version (sent.reading arrivals buffer pending)
    refine .inl ⟨rest.missing_eq_nil, last, fun later => ?_, rfl, rfl⟩
    exact (goesOn later).trans (gives.bind (fun later => hearAnswer_eq answered) later)
  · refine .inr ⟨waiting, fun code later => ?_⟩
    rw [goesOn]
    exact starved.bind _ code later

/-- A server to which a part of the client's state has arrived waits for the rest, and has written
nothing; one to which all of it has arrived has answered. -/
theorem openAsServer_cases (written : client.encode client.version = .ok hello)
    (fits : (helloMessage client).Fits limit)
    (answered : server.encode (Version.negotiated client.version server.version) = .ok answer)
    (short : answer.length < UInt32.size) (nonempty : [] ∉ pieces)
    (stream : pieces.flatten ++ missing = ((helloMessage client).frame .client 0).encode) :
    (missing = [] ∧ ∃ last,
      (openAsServer server).Gives (opened .server (.carrying pieces) limit)
        (.ok (client.onWire client.version) last) ∧
      last.version = some (Version.negotiated client.version server.version) ∧
      last.connection.written = ((answerMessage client.version server).frame .server 0).encode) ∨
    (missing ≠ [] ∧ (openAsServer server).Starved (opened .server (.carrying pieces) limit) ∧
      ((openAsServer server).after
        (opened .server (.carrying pieces) limit)).connection.written = []) := by
  let fresh := opened .server (.carrying pieces) limit
  have goesOn (later : List Arrival) : openAsServer server (fresh.arriving later) =
      (expect .clientState >>= answerHello server) (fresh.arriving later) :=
    openAsServer_eq rfl
  have received : fresh.Receives limit [(helloMessage client).frame .client 0] missing := by
    refine receives_of_fresh rfl rfl rfl nonempty ?_ (by simpa using stream)
    intro frame member
    rw [List.mem_singleton.mp member]
    exact fits.admitted .client 0
  have sender : Role.client ≠ fresh.role := nofun
  rcases received.expect_cases sender fits nofun with
    ⟨arrivals, buffer, pending, gives, rest⟩ | ⟨starved, waiting⟩
  · let last := (settle client.version server.version (fresh.reading arrivals buffer pending)).writing
      ((answerMessage client.version server).frame .server 0).encode
    refine .inl ⟨rest.missing_eq_nil, last, .of_eq goesOn (gives.bind fun later => ?_), rfl, rfl⟩
    exact answerHello_eq rfl rfl rfl written answered short
  · refine .inr ⟨waiting, .of_eq goesOn (starved.bind _), ?_⟩
    rw [after, openAsServer_eq rfl]
    exact starved.written_after (answerHello server)

end Session

/-- Two ends whose states can be written, and fit the frames that they admit, open a session with
each other, however their bytes are cut. -/
theorem exists_handshake {client : ClientState} {server : ServerState}
    {clientLimit serverLimit : UInt32} {hello answer : Bytes} {toClient toServer : List Bytes}
    (written : client.encode client.version = .ok hello)
    (answered : server.encode (Version.negotiated client.version server.version) = .ok answer)
    (helloFits : (helloMessage client).Fits serverLimit)
    (answerFits : (answerMessage client.version server).Fits clientLimit)
    (clientNonempty : [] ∉ toClient) (serverNonempty : [] ∉ toServer)
    (clientStream : toClient.flatten =
      ((answerMessage client.version server).frame .server 0).encode)
    (serverStream : toServer.flatten = ((helloMessage client).frame .client 0).encode) :
    ∃ clientEnd serverEnd,
      Handshake client server clientLimit serverLimit clientEnd serverEnd := by
  have helloShort : hello.length < UInt32.size := by
    simpa [helloMessage_eq written] using helloFits.lt
  have answerShort : answer.length < UInt32.size := by
    simpa [answerMessage_eq answered] using answerFits.lt
  rcases openAsClient_cases written helloShort answered answerFits clientNonempty
      ((List.append_nil _).trans clientStream) with
    ⟨-, clientEnd, clientGives, -, clientWrote⟩ | ⟨waiting, -⟩
  · rcases openAsServer_cases written helloFits answered answerShort serverNonempty
        ((List.append_nil _).trans serverStream) with
      ⟨-, serverEnd, serverGives, -, serverWrote⟩ | ⟨waiting, -⟩
    · exact ⟨clientEnd, serverEnd, toClient, toServer, _, _, clientNonempty, serverNonempty,
        clientGives.eq, serverGives.eq, clientStream.trans serverWrote.symm,
        serverStream.trans clientWrote.symm⟩
    · exact absurd rfl waiting
  · exact absurd rfl waiting

end SignalAccess

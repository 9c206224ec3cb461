import SignalAccess.Proofs.Session.Calls
import SignalAccess.Proofs.Session.Run

/-!
# Replies belong to the latest requests

A client that has opened a session calls its operations in any order, and its peer sends any bytes in
any pieces. A reply that the client receives is then made of two frames that stand side by side in the
stream, both of them from a server and both under the number of the client's latest requests.

The invariant behind it says where a client stands after any calls. Its version and that of the server
are those of the handshake, its number counts the requests that it could write, and the frames that
remain for it are the last ones of its stream. No call brings a frame back, not even one that fails.

The numbers are all that tells replies apart. A reply that came too early and was left over by a
failure is refused unless it is under the number of the latest requests, which a peer can foresee.
-/

namespace SignalAccess

open Session Operation

/-- A frame of some kind that a server sends in reply to the requests under some number. -/
structure Frame.Answers (kind : MessageKind) (number : UInt32) (frame : Frame) : Prop where
  kinded : frame.header.kind? = some kind
  directed : frame.header.isToClient = true
  numbered : frame.header.sequence = number

namespace Session

/-- Whether a call takes a number: requests that can be written do. -/
def Call.takesNumber (version : Version) : Call → Bool
  | .sendRequests block => (block.encode version).isOk
  | _ => false

/-- How many numbers calls take. -/
def requestsMade (version : Version) (calls : List Call) : Nat :=
  calls.countP (·.takesNumber version)

/-- Where a client stands that has made some requests and reads a stream of frames. -/
structure Follows (stream : List Frame) (version stated : Version) (made : Nat) (session : Session) :
    Prop where
  role : session.role = .client
  version : session.version = some version
  serverVersion : session.serverVersion = stated
  sequence : session.sequence = UInt32.ofNat made
  remaining : session.remaining <:+ stream

variable {stream : List Frame} {version stated : Version} {made : Nat} {session next : Session}

/-- A client that goes on along its stream follows it still. -/
theorem Follows.advance (follows : session.Follows stream version stated made)
    (advances : session.Advances next) : next.Follows stream version stated made where
  role := advances.role_eq.trans follows.role
  version := advances.version_eq.trans follows.version
  serverVersion := advances.serverVersion_eq.trans follows.serverVersion
  sequence := advances.sequence_eq.trans follows.sequence
  remaining := advances.remaining.trans follows.remaining

/-- A client that writes follows its stream still. -/
theorem Follows.write (follows : session.Follows stream version stated made)
    (writes : session.Writes next) : next.Follows stream version stated made := by
  obtain ⟨written, isShut, rfl⟩ := writes
  exact ⟨follows.role, follows.version, follows.serverVersion, follows.sequence, follows.remaining⟩

/-- The next number counts one request more. -/
theorem Follows.number (follows : session.Follows stream version stated made) :
    ({ session with sequence := session.sequence + 1 } : Session).Follows stream version stated
      (made + 1) := by
  refine ⟨follows.role, follows.version, follows.serverVersion, ?_, follows.remaining⟩
  rw [UInt32.ofNat_add, ← follows.sequence]
  rfl

/-- A client refuses to act as a server. -/
theorem Follows.after_eq_of_refused {α : Type} {f : Unit → Operation α}
    (follows : session.Follows stream version stated made) :
    (requireRole .server >>= f).after session = session := by
  have other : session.role ≠ .server := by
    rw [follows.role]
    nofun
  exact after_of_error (requireRole_refused other f)

/-- A call leaves a client where it stands, but for the number that the call takes. -/
theorem Follows.afterCall (follows : session.Follows stream version stated made) (call : Call) :
    (session.afterCall call).Follows stream version stated
      (made + requestsMade version [call]) := by
  cases call with
  | sendRequests block =>
    cases written : block.encode version with
    | error failure =>
      have none : requestsMade version [.sendRequests block] = 0 := by
        simp [requestsMade, Call.takesNumber, written, Except.isOk, Except.toBool]
      rw [none, Session.afterCall, after_sendRequests_of_error follows.role follows.version written]
      exact follows
    | ok payload =>
      have one : requestsMade version [.sendRequests block] = 1 := by
        simp [requestsMade, Call.takesNumber, written, Except.isOk, Except.toBool]
      rw [one]
      exact follows.number.write (writes_sendRequests follows.role follows.version written)
  | receiveRequests =>
    rw [Session.afterCall, receiveRequests, follows.after_eq_of_refused]
    exact follows
  | sendReply list server =>
    rw [Session.afterCall, sendReply, follows.after_eq_of_refused]
    exact follows
  | receiveReply => exact follows.advance (advancing_receiveReply session)
  | close => exact follows.write (writes_close session)

/-- Calls leave a client where it stands, but for the numbers that they take. -/
theorem Follows.afterCalls (follows : session.Follows stream version stated made)
    (calls : List Call) :
    (session.afterCalls calls).Follows stream version stated
      (made + requestsMade version calls) := by
  induction calls generalizing session made with
  | nil => exact follows
  | cons call calls inductionHypothesis =>
    have counted : requestsMade version (call :: calls) =
        requestsMade version [call] + requestsMade version calls := by
      rw [requestsMade, ← List.singleton_append, List.countP_append]
      rfl
    rw [counted, ← Nat.add_assoc]
    exact inductionHypothesis (follows.afterCall call)

/-- A client that has opened a session stands at some point of the stream. -/
theorem follows_of_openAsClient {client : ClientState} {connection : Connection} {limit : UInt32}
    {server : ServerState}
    (opened : openAsClient client (.opened .client connection limit) = .ok server session) :
    session.Follows (connection.frames limit) (Version.negotiated client.version server.version)
      server.version 0 := by
  obtain ⟨payload, frame, heard, -, -, -, expected, -, rfl⟩ := openAsClient_eq_ok rfl opened
  obtain ⟨advances, -⟩ := expect_eq_ok expected
  exact ⟨advances.role_eq, rfl, rfl, advances.sequence_eq, advances.remaining⟩

/-- A frame that a client expects and that is under its number is an answer, and the first frame that
remained. -/
theorem exists_answer_of_bind {α : Type} {kind : MessageKind} {f : Frame → Operation α} {value : α}
    {last : Session} (role : session.role = .client)
    (received : (expect kind >>= fun frame => requireSequence frame >>= fun _ => f frame) session =
      .ok value last) :
    ∃ frame next, session.Advances next ∧ session.remaining = frame :: next.remaining ∧
      frame.Answers kind session.sequence ∧ f frame next = .ok value last := by
  obtain ⟨frame, next, expected, received⟩ := bind_eq_ok received
  obtain ⟨advances, taken, kinded, directed⟩ := expect_eq_ok expected
  obtain ⟨_, _, passed, received⟩ := bind_eq_ok received
  obtain ⟨numbered, rfl⟩ := requireSequence_eq_ok passed
  rw [role] at directed
  rw [advances.sequence_eq] at numbered
  exact ⟨frame, next, advances, taken, ⟨kinded, directed, numbered⟩, received⟩

/-- A reply that is received is made of the first two frames that remain. -/
theorem Follows.receiveReply_eq_ok {server : ServerState} {list : BlockList}
    (follows : session.Follows stream version stated made)
    (received : receiveReply session = .ok (server, list) next) :
    ∃ first second, session.remaining = first :: second :: next.remaining ∧
      first.Answers .serverState session.sequence ∧ second.Answers .blockList session.sequence ∧
      ServerState.decode version first.payload = .ok server ∧
      BlockList.decode version second.payload = .ok list ∧ server.version = stated := by
  rw [receiveReply_eq follows.role follows.version] at received
  obtain ⟨first, middle, advances, taken, answers, received⟩ :=
    exists_answer_of_bind follows.role received
  have stands := follows.advance advances
  obtain ⟨_, _, decoded, received⟩ := bind_eq_ok received
  obtain ⟨state, rfl⟩ := ofResult_eq_ok decoded
  rw [get_bind] at received
  obtain ⟨unchanged, received⟩ := passed_of_guard received
  obtain ⟨second, last, -, takenAgain, answersAgain, received⟩ :=
    exists_answer_of_bind stands.role received
  obtain ⟨_, _, decoded, received⟩ := bind_eq_ok received
  obtain ⟨blocks, rfl⟩ := ofResult_eq_ok decoded
  cases received
  rw [advances.sequence_eq] at answersAgain
  rw [stands.serverVersion] at unchanged
  exact ⟨first, second, by rw [taken, takenAgain], answers, answersAgain, state, blocks,
    Classical.not_not.mp unchanged⟩

/-- The numbers of fewer than 2³² requests differ from the number in front of them. -/
theorem ofNat_ne_ofNat_add {before more : Nat} (some : more ≠ 0) (few : more < UInt32.size) :
    UInt32.ofNat (before + more) ≠ UInt32.ofNat before := by
  intro same
  have values := congrArg UInt32.toNat same
  simp only [UInt32.toNat_ofNat', UInt32.size] at values few
  omega

/-- A reply that a client receives belongs to its latest requests. Whatever its peer sends, in whatever
pieces, and whatever was called before, failed or not: the reply is two frames that stand side by side
in the stream and are the first that remained, a state and a list of blocks, both from a server and
both under the number of the latest requests; and the state is that of the server of the handshake.
Neither frame is under a number that the client had before it made those requests, unless 2³² of them
followed. -/
theorem reply_of_latest_requests {client : ClientState} {connection : Connection} {limit : UInt32}
    {stated : ServerState} {session : Session}
    (opened : openAsClient client (.opened .client connection limit) = .ok stated session)
    {calls : List Call} {server : ServerState} {list : BlockList} {next : Session}
    (received : receiveReply (session.afterCalls calls) = .ok (server, list) next) :
    let version := Version.negotiated client.version stated.version
    let number := (session.afterCalls calls).sequence
    number = UInt32.ofNat (requestsMade version calls) ∧ server.version = stated.version ∧
      ∃ before first second,
        connection.frames limit = before ++ first :: second :: next.remaining ∧
        (session.afterCalls calls).remaining = first :: second :: next.remaining ∧
        first.Answers .serverState number ∧ second.Answers .blockList number ∧
        ServerState.decode version first.payload = .ok server ∧
        BlockList.decode version second.payload = .ok list ∧
        ∀ earlier later, calls = earlier ++ later → requestsMade version later ≠ 0 →
          requestsMade version later < UInt32.size →
          first.header.sequence ≠ (session.afterCalls earlier).sequence ∧
            second.header.sequence ≠ (session.afterCalls earlier).sequence := by
  intro version number
  have stands (calls : List Call) : (session.afterCalls calls).Follows (connection.frames limit)
      version stated.version (requestsMade version calls) := by
    have follows := (follows_of_openAsClient opened).afterCalls calls
    rwa [Nat.zero_add] at follows
  have follows := stands calls
  obtain ⟨first, second, taken, answers, answersAgain, state, blocks, unchanged⟩ :=
    follows.receiveReply_eq_ok received
  obtain ⟨before, split⟩ := follows.remaining
  refine ⟨follows.sequence, unchanged, before, first, second, ?_, taken, answers, answersAgain,
    state, blocks, ?_⟩
  · rw [← split, taken]
  · rintro earlier later rfl some few
    have old := (stands earlier).sequence
    have counted : requestsMade version (earlier ++ later) =
        requestsMade version earlier + requestsMade version later := List.countP_append
    have differs : number ≠ (session.afterCalls earlier).sequence := by
      rw [old, show number = _ from follows.sequence, counted]
      exact ofNat_ne_ofNat_add some few
    rw [answers.numbered, answersAgain.numbered]
    exact ⟨differs, differs⟩

/-! ## A client to which whole frames arrive -/

/-- A client of some version and number, with frames pending and pieces to be read, and between two
frames of its stream. -/
structure Awaits (settled : Version) (limit : UInt32) (taken : List Frame) (pieces : List Bytes)
    (number : UInt32) (session : Session) : Prop where
  role : session.role = .client
  version : session.version = some settled
  serverVersion : session.serverVersion = settled
  sequence : session.sequence = number
  buffer : session.buffer = .empty limit
  pending : session.pending = taken
  arrivals : session.connection.arrivals = pieces.map .piece

variable {limit number : UInt32} {taken : List Frame} {pieces : List Bytes}

/-- Requests take the next number, and change nothing of what is to be read. -/
theorem Awaits.request {block : RequestBlock} {payload : Bytes}
    (awaits : session.Awaits version limit taken pieces number)
    (written : block.encode version = .ok payload) :
    (session.afterCall (.sendRequests block)).Awaits version limit taken pieces (number + 1) := by
  obtain ⟨_, _, called⟩ := writes_sendRequests awaits.role awaits.version written
  rw [Session.afterCall, called]
  exact ⟨awaits.role, awaits.version, awaits.serverVersion, congrArg (· + 1) awaits.sequence,
    awaits.buffer, awaits.pending, awaits.arrivals⟩

/-- The reply of a round that fits is received where its frames are under the client's number. Some
of the frames may be pending, and the others in the pieces. -/
theorem Awaits.receiveReply {clientLimit serverLimit : UInt32} {round : Round} {coming : List Frame}
    (awaits : session.Awaits version clientLimit taken pieces number)
    (fits : round.Fits version version clientLimit serverLimit)
    (objects : ∀ block ∈ round.blocks.blocks, block.ObjectReadBack)
    (split : round.replyFrames version number = taken ++ coming) (nonempty : [] ∉ pieces)
    (stream : pieces.flatten = coming.flatMap Frame.encode) :
    ∃ next, Session.receiveReply session =
      .ok (round.server.onWire version, round.blocks) next := by
  have held : (FrameBuffer.holding clientLimit []).drain = (.ok [], session.buffer) :=
    awaits.buffer ▸ FrameBuffer.drain_holding_nil clientLimit
  have admitted : ∀ frame ∈ coming, frame.Admitted clientLimit := fun frame member =>
    fits.admitted_replyFrames number frame (split ▸ List.mem_append_right taken member)
  have received : session.Receives clientLimit (round.replyFrames version number) [] := by
    refine ⟨[], coming, pieces, ?_, admitted, held, awaits.arrivals, nonempty, by simpa using stream⟩
    rw [awaits.pending, split]
  obtain ⟨payload, written, -⟩ := fits.server
  rcases receiveReply_cases awaits.role awaits.version awaits.sequence
      (awaits.serverVersion.trans fits.stated.symm) written fits.stateMessage fits.blocksMessage
      received with ⟨_, _, _, gives, -⟩ | ⟨-, waiting⟩
  · have learned : replyOutcome version round.server round.blocks =
        .ok (round.server.onWire version, round.blocks) := round.learned_eq fits objects
    rw [learned] at gives
    exact ⟨_, gives.eq⟩
  · exact absurd rfl waiting

/-- A reply under another number is refused with its first frame. The other frames that arrived with
it are pending then. -/
theorem Awaits.receiveReply_refused {frame : Frame} {others : List Frame}
    (awaits : session.Awaits version limit []
      ((frame :: others).flatMap Frame.encode :: pieces) number)
    (admitted : ∀ other ∈ frame :: others, other.Admitted limit) {foreign : UInt32}
    (answers : frame.Answers .serverState foreign) (differs : foreign ≠ number) :
    ∃ failed, Session.receiveReply session =
        .error (.protocol .state (.sequenceMismatch foreign number)) failed ∧
      failed.Awaits version limit others pieces number := by
  let failed := session.reading (pieces.map .piece) (.empty limit) others
  have directed : frame.header.isToClient = (session.role == .client) := by
    rw [answers.directed, awaits.role]
    rfl
  have taken : expect .serverState session = .ok frame failed :=
    expect_piece awaits.buffer awaits.pending awaits.arrivals admitted nofun answers.kinded directed
  have refused : receiveBehind version frame failed =
      .error (.protocol .state (.sequenceMismatch foreign number)) failed := by
    have latest : failed.sequence = number := awaits.sequence
    rw [receiveBehind, requireSequence, bind_assoc, get_bind, latest, answers.numbered,
      if_neg differs]
    rfl
  refine ⟨failed, ?_, awaits.role, awaits.version, awaits.serverVersion, awaits.sequence, rfl, rfl,
    rfl⟩
  rw [receiveReply_eq awaits.role awaits.version, bind_of_eq_ok taken]
  exact refused

end Session

/-- A round without data. -/
def Round.vacant : Round := ⟨⟨[.blank]⟩, .host, ⟨[.empty]⟩⟩

/-- The messages of a round without data fit every frame. -/
theorem Round.fits_vacant :
    vacant.Fits .current .current FrameHeader.standardLimit FrameHeader.standardLimit :=
  ⟨⟨_, rfl, by decide⟩, ⟨_, rfl, by decide⟩, ⟨_, rfl, by decide⟩, rfl⟩

/-- No object is in the reply of a round without data. -/
theorem Round.objects_vacant : ∀ block ∈ vacant.blocks.blocks, block.ObjectReadBack := by
  intro block member
  obtain rfl := List.mem_singleton.mp member
  rintro _ ⟨⟩

/-- The connection of a client whose greeting a server answers before it sends some frames in one
piece. -/
def Connection.answering (frames : List Frame) : Connection :=
  .carrying [((answerMessage .current .host).frame .server 0).encode, frames.flatMap Frame.encode]

namespace Session

/-- A client that opens a session on such a connection has the frames still to be read. -/
theorem openAsClient_answering (frames : List Frame) :
    ∃ session, openAsClient (.visitor .current)
        (opened .client (.answering frames) FrameHeader.standardLimit) =
          .ok (ServerState.host.onWire .current) session ∧
      session.Awaits .current FrameHeader.standardLimit [] [frames.flatMap Frame.encode] 0 := by
  have fits : (answerMessage .current .host).Fits FrameHeader.standardLimit :=
    Round.fits_vacant.stateMessage
  let greeted := (opened .client (.answering frames) FrameHeader.standardLimit).writing
    ((helloMessage (.visitor .current)).frame .client 0).encode
  let heard := greeted.reading [.piece (frames.flatMap Frame.encode)]
    (.empty FrameHeader.standardLimit) []
  have answered : expect .serverState greeted =
      .ok ((answerMessage .current .host).frame .server 0) heard :=
    expect_message fits nofun nofun rfl rfl rfl
  refine ⟨settle .current .current heard, ?_, ⟨rfl, rfl, rfl, rfl, rfl, rfl, rfl⟩⟩
  rw [openAsClient_eq rfl rfl rfl rfl (by decide), bind_of_eq_ok answered]
  exact hearAnswer_eq rfl

/-- A client that has made a request receives the reply under its number. -/
theorem reply_of_latest_requests_vacant :
    ∃ session before first second next,
      openAsClient (.visitor .current) (opened .client
        (.answering (Round.vacant.replyFrames .current 1)) FrameHeader.standardLimit) =
          .ok (ServerState.host.onWire .current) session ∧
      receiveReply (session.afterCalls [.sendRequests Round.vacant.requests]) =
          .ok (ServerState.host.onWire .current, Round.vacant.blocks) next ∧
      (Connection.answering (Round.vacant.replyFrames .current 1)).frames
        FrameHeader.standardLimit = before ++ first :: second :: next.remaining ∧
      first.Answers .serverState 1 ∧ second.Answers .blockList 1 ∧ first.header.sequence ≠ 0 := by
  let frames := Round.vacant.replyFrames .current 1
  obtain ⟨session, opened, awaits⟩ := openAsClient_answering frames
  have made : (session.afterCalls [.sendRequests Round.vacant.requests]).Awaits .current
      FrameHeader.standardLimit [] [frames.flatMap Frame.encode] 1 := awaits.request rfl
  obtain ⟨next, received⟩ :=
    made.receiveReply Round.fits_vacant Round.objects_vacant (List.nil_append _).symm (by decide)
      (List.append_nil _)
  obtain ⟨-, -, before, first, second, stream, -, answers, answersAgain, -, -, others⟩ :=
    reply_of_latest_requests opened received
  obtain ⟨differs, -⟩ := others [] [.sendRequests Round.vacant.requests] rfl (by decide) (by decide)
  rw [made.sequence] at answers answersAgain
  rw [show (session.afterCalls []).sequence = 0 from awaits.sequence] at differs
  exact ⟨session, before, first, second, next, opened, received, stream, answers, answersAgain,
    differs⟩

/-- A reply that came too early is received all the same. The peer sends a state under a number that
was never used and, behind it, a reply under the number of a request that is still to be made. The
client fails to receive the state, and the reply is left over; then it makes the request, and receives
what was left over. -/
theorem not_forall_leftover_refused :
    ¬ ∀ (client : ClientState) (connection : Connection) (limit : UInt32) (stated : ServerState)
      (session : Session),
      openAsClient client (.opened .client connection limit) = .ok stated session →
      ∀ (calls : List Call) (failure : Failure) (failed : Session),
        receiveReply (session.afterCalls calls) = .error failure failed →
        ∀ (first second : Frame) (others : List Frame), failed.pending = first :: second :: others →
          (∀ made, made ≤ requestsMade (Version.negotiated client.version stated.version) calls →
            first.header.sequence ≠ UInt32.ofNat made ∧
              second.header.sequence ≠ UInt32.ofNat made) →
          ∀ (block : RequestBlock) (server : ServerState) (list : BlockList) (next : Session),
            receiveReply (failed.afterCall (.sendRequests block)) ≠ .ok (server, list) next := by
  intro claim
  let foreign := (stateMessage .current .host).frame .server 9
  let early := Round.vacant.replyFrames .current 2
  have admitted : ∀ frame ∈ foreign :: early, frame.Admitted FrameHeader.standardLimit := by
    intro frame member
    rcases List.mem_cons.mp member with rfl | later
    · exact Round.fits_vacant.stateMessage.admitted .server 9
    · exact Round.fits_vacant.admitted_replyFrames 2 frame later
  have answers : foreign.Answers .serverState 9 :=
    ⟨Message.kind?_frame _ _ _, Round.fits_vacant.stateMessage.isToClient_frame _ _, rfl⟩
  obtain ⟨session, opened, awaits⟩ := openAsClient_answering (foreign :: early)
  have made : (session.afterCalls [.sendRequests Round.vacant.requests]).Awaits .current
      FrameHeader.standardLimit [] [(foreign :: early).flatMap Frame.encode] 1 := awaits.request rfl
  obtain ⟨failed, fails, leftOver⟩ := made.receiveReply_refused admitted answers (by decide)
  have madeAgain : (failed.afterCall (.sendRequests Round.vacant.requests)).Awaits .current
      FrameHeader.standardLimit early [] 2 := leftOver.request rfl
  obtain ⟨next, received⟩ :=
    madeAgain.receiveReply Round.fits_vacant Round.objects_vacant (List.append_nil _).symm nofun rfl
  have unused : ∀ made, made ≤ requestsMade .current [.sendRequests Round.vacant.requests] →
      (2 : UInt32) ≠ UInt32.ofNat made := by
    intro made few
    have one : requestsMade .current [.sendRequests Round.vacant.requests] = 1 := rfl
    rcases (by omega : made = 0 ∨ made = 1) with rfl | rfl <;> decide
  exact claim _ _ _ _ session opened _ _ failed fails _ _ [] leftOver.pending
    (fun made few => ⟨unused made few, unused made few⟩) Round.vacant.requests _ _ next received

end Session

end SignalAccess

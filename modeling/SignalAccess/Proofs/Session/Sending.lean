import SignalAccess.Proofs.Session.Ending
import SignalAccess.Proofs.Session.Unsettled

/-!
# Sending all or nothing

A session checks everything that can keep it from sending before it takes a number or writes a byte:
that it is the end which sends this, that a version governs it, and that every part of what it sends
can be written. So an obstacle leaves it as it was. A reply is written in one go behind that, its two
frames side by side.

The number of a reply is that of the session, and a server takes its number from each frame of requests
that it receives. Nothing else that a server does changes it.
-/

namespace SignalAccess

open Session Operation

namespace Session

/-- What keeps a session from sending: it is the other end, no version governs it, or some part of what
it would send cannot be written for the version that does. -/
inductive Obstructed (needed : Role) (parts : Version → List Encoding) (session : Session) : Prop where
  | role (other : session.role ≠ needed)
  | unsettled (none : session.version = none)
  | part {version : Version} {failure : Failure} (governs : session.version = some version)
      (member : .error failure ∈ parts version)

/-- The parts of requests on the wire. -/
def requestParts (block : RequestBlock) (version : Version) : List Encoding := [block.encode version]

/-- The parts of a reply on the wire: the state of the server and the data blocks. -/
def replyParts (list : BlockList) (server : ServerState) (version : Version) : List Encoding :=
  [server.encode version, list.encode version]

variable {α : Type} {session next : Session} {needed : Role} {parts : Version → List Encoding}
  {version : Version}

/-- Either both checks in front of an operation pass, or one refuses and the session is left as it
was. -/
theorem checks_cases (needed : Role) (f : Version → Operation α) (session : Session) :
    (∃ version, session.role = needed ∧ session.version = some version ∧
      (requireRole needed >>= fun _ => requireVersion >>= f) session = f version session) ∨
    ∃ failure, (requireRole needed >>= fun _ => requireVersion >>= f) session =
      .error failure session := by
  by_cases role : session.role = needed
  · cases settled : session.version with
    | none => exact .inr ⟨_, checks_refuse settled needed f⟩
    | some version =>
      refine .inl ⟨version, role, rfl, ?_⟩
      rw [requireRole_bind role, requireVersion_bind settled]
  · exact .inr ⟨_, requireRole_refused role _⟩

/-- An obstructed session that passes the checks is kept by a part that cannot be written. -/
theorem Obstructed.exists_part (obstructed : session.Obstructed needed parts)
    (role : session.role = needed) (settled : session.version = some version) :
    ∃ failure, .error failure ∈ parts version := by
  cases obstructed with
  | role other => exact absurd role other
  | unsettled none =>
    rw [settled] at none
    cases none
  | part governs member =>
    rw [settled] at governs
    cases governs
    exact ⟨_, member⟩

/-- A session that is not obstructed is governed by a version for which every part can be written. -/
theorem exists_version_of_not_obstructed (free : ¬ session.Obstructed needed parts) :
    session.role = needed ∧ ∃ version, session.version = some version ∧
      ∀ part ∈ parts version, ∃ bytes, part = .ok bytes := by
  refine ⟨Classical.byContradiction fun other => free (.role other), ?_⟩
  cases settled : session.version with
  | none => exact absurd (.unsettled settled) free
  | some version =>
    refine ⟨version, rfl, fun part member => ?_⟩
    cases part with
    | error failure => exact absurd (.part settled member) free
    | ok bytes => exact ⟨bytes, rfl⟩

/-- An obstructed operation leaves the session as it was if behind its checks it does so for each part
that cannot be written. -/
theorem Obstructed.refused (obstructed : session.Obstructed needed parts)
    {f : Version → Operation α}
    (fails : ∀ version failure, .error failure ∈ parts version →
      ∃ refusal, f version session = .error refusal session) :
    ∃ refusal, (requireRole needed >>= fun _ => requireVersion >>= f) session =
      .error refusal session := by
  rcases checks_cases needed f session with ⟨version, role, settled, passed⟩ | refused
  · obtain ⟨failure, member⟩ := obstructed.exists_part role settled
    rw [passed]
    exact fails version failure member
  · exact refused

/-- Requests that are obstructed leave the session as it was, its number included. -/
theorem sendRequests_of_obstructed {block : RequestBlock}
    (obstructed : session.Obstructed .client (requestParts block)) :
    ∃ failure, sendRequests block session = .error failure session := by
  refine obstructed.refused fun version failure member => ⟨failure, ?_⟩
  rw [← List.mem_singleton.mp member]
  rfl

/-- A reply that is obstructed leaves the session as it was, even if only its second part is what
cannot be written. -/
theorem sendReply_of_obstructed {list : BlockList} {server : ServerState}
    (obstructed : session.Obstructed .server (replyParts list server)) :
    ∃ failure, sendReply list server session = .error failure session := by
  refine obstructed.refused fun version failure member => ?_
  rcases List.mem_pair.mp member with unwritten | unwritten
  · rw [← unwritten]
    exact ⟨failure, rfl⟩
  · rw [← unwritten]
    cases server.encode version with
    | error refusal => exact ⟨refusal, rfl⟩
    | ok state => exact ⟨failure, rfl⟩

/-! ## Replies that are written -/

/-- The connection takes what is written, and each of the messages fits a frame. -/
def CanSend (messages : List Message) (session : Session) : Prop :=
  session.connection.writeFailure = none ∧
    ∀ message ∈ messages, message.payload.length < UInt32.size

/-- Messages one of which fits no frame are refused together. -/
theorem exists_mapM_frame_error {messages : List Message}
    (long : ∃ message ∈ messages, ¬ message.payload.length < UInt32.size) :
    ∃ failure, messages.mapM session.frame = .error failure := by
  induction messages with
  | nil => simp at long
  | cons message messages inductionHypothesis =>
    by_cases short : message.payload.length < UInt32.size
    · have first : session.frame message = .ok (message.frame session.role session.sequence) :=
        if_pos short
      have others : ∃ other ∈ messages, ¬ other.payload.length < UInt32.size := by
        obtain ⟨other, member, tooLong⟩ := long
        rcases List.mem_cons.mp member with rfl | later
        · exact absurd short tooLong
        · exact ⟨other, later, tooLong⟩
      obtain ⟨failure, refused⟩ := inductionHypothesis others
      rw [List.mapM_cons, first, refused]
      exact ⟨failure, rfl⟩
    · have refused : session.frame message = .error _ := if_neg short
      rw [List.mapM_cons, refused]
      exact ⟨_, rfl⟩

/-- Messages that cannot be sent leave the session as it was. -/
theorem send_refused {messages : List Message} (cannot : ¬ session.CanSend messages) :
    ∃ failure, send messages session = .error failure session := by
  cases framed : messages.mapM session.frame with
  | error failure => exact ⟨failure, by rw [send, get_bind, framed, ofResult_error_bind]⟩
  | ok frames =>
    cases writable : session.connection.writeFailure with
    | some code =>
      refine ⟨.system (.numbered code), ?_⟩
      simp only [send, get_bind, framed, ofResult_ok_bind, Connection.write, writable,
        ofResult_error_bind]
    | none =>
      have long : ∃ message ∈ messages, ¬ message.payload.length < UInt32.size := by
        by_contra none
        exact cannot ⟨writable, by simpa using none⟩
      obtain ⟨failure, refused⟩ := @exists_mapM_frame_error session messages long
      rw [framed] at refused
      cases refused

/-- A reply is sent as a whole: its two frames, which carry its parts under the number of the session,
are written side by side and nothing else changes, or the session is left as it was. -/
def SendsWhole (list : BlockList) (server : ServerState) (session : Session) : Prop :=
  ∃ version, session.version = some version ∧
    let first := stateMessage version server
    let second := blocksMessage version server list
    server.encode version = .ok first.payload ∧ list.encode version = .ok second.payload ∧
    (session.CanSend [first, second] → sendReply list server session =
      .ok ⟨⟩ (session.writing ((first.frame .server session.sequence).encode ++
        (second.frame .server session.sequence).encode))) ∧
    (¬ session.CanSend [first, second] →
      ∃ failure, sendReply list server session = .error failure session)

/-- A reply that is not obstructed is sent as a whole. -/
theorem sendsWhole_of_not_obstructed {list : BlockList} {server : ServerState}
    (free : ¬ session.Obstructed .server (replyParts list server)) :
    session.SendsWhole list server := by
  obtain ⟨role, version, settled, written⟩ := exists_version_of_not_obstructed free
  obtain ⟨state, stateWritten⟩ := written (server.encode version) (by simp [replyParts])
  obtain ⟨blocks, blocksWritten⟩ := written (list.encode version) (by simp [replyParts])
  have sent := sendReply_eq_send role settled stateWritten blocksWritten
  refine ⟨version, settled, ?_, ?_, ?_, ?_⟩
  · rw [stateMessage, stateWritten]
    rfl
  · rw [blocksMessage, blocksWritten]
    rfl
  · rintro ⟨writable, short⟩
    rw [sent, send_eq writable short, role]
    simp
  · intro cannot
    rw [sent]
    exact send_refused cannot

/-! ## The number of a server -/

/-- Taking a frame of requests, with the checks in front. -/
def takeRequestFrame : Operation Frame := do
  requireRole .server
  let _ ← requireVersion
  expect .requestBlock

/-- The frame of requests that a server receives in a step, if it receives one. -/
def received (session : Session) : ServerStep → List Frame
  | .call .receiveRequests => (takeRequestFrame.outcome session).toOption.toList
  | _ => []

/-- The frames of requests that a server receives in steps, one after the other. -/
def requestsReceived (session : Session) : List ServerStep → List Frame
  | [] => []
  | step :: steps => session.received step ++ (session.afterStep step).requestsReceived steps

/-- The number of the last of some frames. If there are none, it is the number before. -/
def latestNumber (number : UInt32) (frames : List Frame) : UInt32 :=
  (frames.getLast?.map (·.header.sequence)).getD number

/-- The number behind some frames and others is that of the last of all. -/
theorem latestNumber_append (number : UInt32) (frames others : List Frame) :
    latestNumber (latestNumber number frames) others = latestNumber number (frames ++ others) := by
  cases last : others.getLast? with
  | none =>
    obtain rfl := List.getLast?_eq_none_iff.mp last
    rw [List.append_nil]
    rfl
  | some frame => simp [latestNumber, List.getLast?_append, last]

/-- The second session has the number of the first one. -/
def SameNumber (session next : Session) : Prop := next.sequence = session.sequence

/-- All that takes no number leaves the number as it is. -/
theorem steady_sameNumber : Steady SameNumber where
  refl _ := rfl
  trans first second := second.trans first
  reads session := (advancing_nextFrame session).sequence_eq
  sends messages session := by
    obtain ⟨_, _, same⟩ := writes_send messages session
    rw [same]
    rfl
  settles _ _ _ := rfl
  shut _ := rfl

/-- A server that is governed by a version receives the frame of requests that it expects. -/
theorem received_eq (role : session.role = .server) (settled : session.version = some version) :
    session.received (.call .receiveRequests) =
      ((expect .requestBlock).outcome session).toOption.toList := by
  rw [received, outcome, takeRequestFrame, requireRole_bind role, requireVersion_bind settled, outcome]

/-- Receiving requests ends with the failure to be given a frame. -/
theorem after_receiveRequests_of_error {failure : Failure} (role : session.role = .server)
    (settled : session.version = some version)
    (failed : expect .requestBlock session = .error failure next) :
    receiveRequests.after session = next := by
  rw [after, receiveRequests_of_expect_error role settled failed]
  cases failure <;> rfl

/-- A frame that is given leaves its number behind, whether its requests can be read or not. -/
theorem after_receiveRequests_of_ok {frame : Frame} (role : session.role = .server)
    (settled : session.version = some version)
    (given : expect .requestBlock session = .ok frame next) :
    receiveRequests.after session = { next with sequence := frame.header.sequence } := by
  rw [after, receiveRequests_of_expect role settled given, takeRequests, modify_bind]
  cases RequestBlock.decode version frame.payload <;> rfl

/-- A frame of requests that is received gives the server its number. -/
theorem sequence_after_receiveRequests (role : session.role = .server) :
    (receiveRequests.after session).sequence =
      latestNumber session.sequence (session.received (.call .receiveRequests)) := by
  cases settled : session.version with
  | none =>
    have refused : receiveRequests session = .error _ session := checks_refuse settled .server _
    have nothing : takeRequestFrame session = .error _ session := checks_refuse settled .server _
    rw [after_of_error refused, received, outcome, nothing]
    rfl
  | some version =>
    rw [received_eq role settled, outcome]
    cases given : expect .requestBlock session with
    | error failure next =>
      have advances := advancing_expect .requestBlock session
      rw [after_of_error given] at advances
      rw [after_receiveRequests_of_error role settled given, advances.sequence_eq]
      rfl
    | ok frame next =>
      rw [after_receiveRequests_of_ok role settled given]
      rfl

/-- A server takes its number from the frame of requests that it receives, if it receives one. -/
theorem sequence_afterStep (role : session.role = .server) (step : ServerStep) :
    (session.afterStep step).sequence = latestNumber session.sequence (session.received step) := by
  have other : session.role ≠ .client := by
    rw [role]
    nofun
  cases step with
  | handshake server => exact steady_sameNumber.leads_openAsServer server session
  | call call =>
    cases call with
    | sendRequests block =>
      have refused : sendRequests block session = .error _ session := requireRole_refused other _
      exact congrArg Session.sequence (after_of_error refused)
    | receiveRequests => exact sequence_after_receiveRequests role
    | sendReply list server => exact steady_sameNumber.leads_sendReply list server session
    | receiveReply => exact steady_sameNumber.leads_receiveReply steady_sameNumber.reads session
    | close => exact steady_sameNumber.leads_close session

/-- Whatever a server does, its number is that of the last frame of requests that it received. By
induction on the steps. -/
theorem sequence_afterSteps (role : session.role = .server) (steps : List ServerStep) :
    (session.afterSteps steps).sequence =
      latestNumber session.sequence (session.requestsReceived steps) := by
  induction steps generalizing session with
  | nil => rfl
  | cons step steps inductionHypothesis =>
    have sameRole := (kept_staysSettled.afterStep session step).1
    have behind := inductionHypothesis (sameRole.trans role)
    rw [sequence_afterStep role step, latestNumber_append] at behind
    exact behind

/-- Requests that a server is given are those of the frame that it receives. -/
theorem received_of_receiveRequests {block : RequestBlock}
    (given : receiveRequests session = .ok (some block) next) :
    ∃ version frame, session.version = some version ∧
      session.received (.call .receiveRequests) = [frame] ∧
      RequestBlock.decode version frame.payload = .ok block := by
  rcases checks_cases .server _ session with ⟨version, role, settled, -⟩ | ⟨failure, refused⟩
  · refine ⟨version, ?_⟩
    rw [received_eq role settled, outcome]
    cases expected : expect .requestBlock session with
    | error failure last =>
      rw [receiveRequests_of_expect_error role settled expected] at given
      cases failure <;> cases given
    | ok frame last =>
      rw [receiveRequests_of_expect role settled expected, takeRequests, modify_bind] at given
      cases decoded : RequestBlock.decode version frame.payload with
      | error failure =>
        rw [decoded, ofResult_error_bind] at given
        cases given
      | ok requests =>
        rw [decoded, ofResult_ok_bind] at given
        cases given
        exact ⟨frame, settled, rfl, decoded⟩
  · rw [receiveRequests, refused] at given
    cases given

/-- What sending makes of a session. Requests and replies that are obstructed leave it as it was: nothing
is written, and no number is taken. A reply that is not obstructed is sent as a whole, under the number
of the session. That of a server is the number of the last frame of requests that it received, whatever
else was done on its session; and the requests that it is given are those of a frame that counts. -/
theorem sends_all_or_nothing :
    (∀ (session : Session) (block : RequestBlock),
      session.Obstructed .client (requestParts block) →
        ∃ failure, sendRequests block session = .error failure session) ∧
    (∀ (session : Session) (list : BlockList) (server : ServerState),
      session.Obstructed .server (replyParts list server) →
        ∃ failure, sendReply list server session = .error failure session) ∧
    (∀ (session : Session) (list : BlockList) (server : ServerState),
      ¬ session.Obstructed .server (replyParts list server) → session.SendsWhole list server) ∧
    (∀ (connection : Connection) (limit : UInt32) (steps : List ServerStep),
      ((opened .server connection limit).afterSteps steps).sequence =
        latestNumber 0 ((opened .server connection limit).requestsReceived steps)) ∧
    ∀ (session next : Session) (block : RequestBlock),
      receiveRequests session = .ok (some block) next →
        ∃ version frame, session.version = some version ∧
          session.received (.call .receiveRequests) = [frame] ∧
          RequestBlock.decode version frame.payload = .ok block :=
  ⟨fun _ _ => sendRequests_of_obstructed, fun _ _ _ => sendReply_of_obstructed,
    fun _ _ _ => sendsWhole_of_not_obstructed,
    fun connection limit steps => @sequence_afterSteps (opened .server connection limit) rfl steps,
    fun _ _ _ => received_of_receiveRequests⟩

end Session

/-- Two blocks, the second of which has fewer elements than it announces. -/
def BlockList.halfWritable : BlockList :=
  ⟨[.empty, { Block.empty with type := .flat .int, count := 1 }]⟩

namespace Session

/-- A server that has received requests under the number 7 refuses a reply whose last block cannot be
written, and requests of its own, and is left as it was. Then it replies under this number. -/
theorem sends_all_or_nothing_seven :
    let block : RequestBlock := ⟨[.blank]⟩
    let request := (requestMessage .current block).frame .client 7
    let session := (opened .server (.greeting [request.encode]) FrameHeader.standardLimit).afterSteps
      [.handshake .host, .call .receiveRequests]
    (∃ failure, sendRequests block session = .error failure session) ∧
    (∃ failure, sendReply .halfWritable .host session = .error failure session) ∧
    sendReply ⟨[.empty]⟩ .host session = .ok ⟨⟩ (session.writing
      (((stateMessage .current .host).frame .server 7).encode ++
        ((blocksMessage .current .host ⟨[.empty]⟩).frame .server 7).encode)) := by
  intro block request session
  obtain ⟨written, opens⟩ := exists_written_of_greeting [request.encode]
  let greeted : Session := ⟨.server, ⟨[.piece request.encode], written, none, false⟩,
    .empty FrameHeader.standardLimit, [], some .current, .current, 0⟩
  have fits : (requestMessage .current block).Fits FrameHeader.standardLimit :=
    ⟨.inl rfl, by decide⟩
  have taken : expect .requestBlock greeted =
      .ok request (greeted.reading [] (.empty FrameHeader.standardLimit) []) :=
    expect_message fits nofun nofun rfl rfl rfl
  have reached : session = receiveRequests.after greeted :=
    congrArg (afterStep · (.call .receiveRequests)) opens
  rw [after_receiveRequests_of_ok rfl rfl taken] at reached
  have role : session.role = .server := congrArg Session.role reached
  have settled : session.version = some .current := congrArg Session.version reached
  have own : session.sequence = 7 := congrArg Session.sequence reached
  have writable : session.connection.writeFailure = none :=
    congrArg (·.connection.writeFailure) reached
  obtain ⟨requests, replies, whole, -⟩ := sends_all_or_nothing
  refine ⟨requests session block (.role ?_), ?_, ?_⟩
  · rw [role]
    nofun
  · obtain ⟨failure, refused⟩ : ∃ failure,
        BlockList.halfWritable.encode .current = .error failure := ⟨_, rfl⟩
    exact replies session .halfWritable .host
      (.part settled (List.mem_pair.mpr (.inr refused.symm)))
  · have free : ¬ session.Obstructed .server (replyParts ⟨[.empty]⟩ .host) := by
      intro obstructed
      obtain ⟨failure, member⟩ := obstructed.exists_part role settled
      rcases List.mem_pair.mp member with refused | refused <;> cases refused
    obtain ⟨version, governs, -, -, sends, -⟩ := whole session ⟨[.empty]⟩ .host free
    rw [settled] at governs
    cases governs
    rw [own] at sends
    exact sends ⟨writable, by decide⟩

end Session

end SignalAccess

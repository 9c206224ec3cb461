import SignalAccess.Proofs.Session.Calls
import SignalAccess.Proofs.Session.Run

/-!
# Handshakes that fail

A session refuses to exchange anything as long as no version governs it, and no call changes that. So
a handshake that fails should leave no version behind. The client's part settles the version as the
last thing it does, and keeps to this. The server's part settles it as soon as it has read the state
of the client, before it has written its own: if its own state cannot be written or sent, the
handshake fails, and the version stays settled.

What a server has read by then decides which of the two it is, so its failures are described by the
state of the client that it is given.
-/

namespace SignalAccess

open Session Operation

namespace Session

/-- How a session refuses what one of the ends does in front of the handshake. What belongs to the
other end is refused as such. -/
def refusal (session : Session) (needed : Role) : Failure :=
  if session.role = needed then .protocol .state .notNegotiated
  else .protocol .state (.wrongRole session.role)

/-- A session that refuses every exchange, and is not changed by being asked for one. What belongs to
its own end it refuses because the handshake is not completed. -/
structure Refuses (session : Session) : Prop where
  unsettled : session.version = none
  sendRequests : ∀ block, Session.sendRequests block session =
    .error (session.refusal .client) session
  receiveRequests : Session.receiveRequests session = .error (session.refusal .server) session
  sendReply : ∀ list server, Session.sendReply list server session =
    .error (session.refusal .server) session
  receiveReply : Session.receiveReply session = .error (session.refusal .client) session
  worded : (session.refusal session.role).message = "Protocol error: Handshake not completed"

variable {session next last : Session} {failure : Failure}

/-- Both checks in front of an exchange refuse where no version governs. -/
theorem checks_refuse {α : Type} (unsettled : session.version = none) (needed : Role)
    (f : Version → Operation α) :
    (requireRole needed >>= fun _ => requireVersion >>= f) session =
      .error (session.refusal needed) session := by
  by_cases same : session.role = needed
  · rw [requireRole_bind same, requireVersion_refused unsettled, refusal, if_pos same]
  · rw [requireRole_refused same, refusal, if_neg same]

/-- A session refuses every exchange exactly as long as no version governs it. -/
theorem refuses_iff : session.Refuses ↔ session.version = none := by
  constructor
  · exact Refuses.unsettled
  · intro unsettled
    exact {
      unsettled := unsettled
      sendRequests := fun block => checks_refuse unsettled .client _
      receiveRequests := checks_refuse unsettled .server _
      sendReply := fun list server => checks_refuse unsettled .server _
      receiveReply := checks_refuse unsettled .client _
      worded := by
        rw [refusal, if_pos rfl]
        rfl }

/-- A call of a session that refuses leaves a session that refuses: an exchange changes nothing, and
closing down settles nothing. -/
theorem Refuses.afterCall (refuses : session.Refuses) (call : Call) :
    (session.afterCall call).Refuses := by
  cases call with
  | sendRequests block =>
    rw [Session.afterCall, after_of_error (refuses.sendRequests block)]
    exact refuses
  | receiveRequests =>
    rw [Session.afterCall, after_of_error refuses.receiveRequests]
    exact refuses
  | sendReply list server =>
    rw [Session.afterCall, after_of_error (refuses.sendReply list server)]
    exact refuses
  | receiveReply =>
    rw [Session.afterCall, after_of_error refuses.receiveReply]
    exact refuses
  | close =>
    rw [refuses_iff, Session.afterCall, (writes_close session).version_eq]
    exact refuses.unsettled

/-- A session that refuses every exchange does so after any calls. -/
theorem Refuses.afterCalls (refuses : session.Refuses) (calls : List Call) :
    (session.afterCalls calls).Refuses := by
  induction calls generalizing session with
  | nil => exact refuses
  | cons call calls inductionHypothesis => exact inductionHypothesis (refuses.afterCall call)

/-- A session goes on refusing, whatever is called, exactly if no version governs it. -/
theorem forall_refuses_iff :
    (∀ calls, (session.afterCalls calls).Refuses) ↔ session.version = none := by
  constructor
  · intro refuses
    exact (refuses []).unsettled
  · intro unsettled
    exact (refuses_iff.mpr unsettled).afterCalls

/-! ## Where a handshake fails -/

/-- A session that fails to give a frame keeps its version. -/
theorem version_of_expect_error {kind : MessageKind}
    (failed : expect kind session = .error failure last) : last.version = session.version := by
  rw [← after_of_error failed]
  exact (advancing_expect kind session).version_eq

/-- Whether messages were sent or not, no version was settled. -/
theorem version_of_send {messages : List Message} {session next : Session}
    (left : (send messages).after session = next) : next.version = session.version := by
  rw [← left]
  exact (writes_send messages session).version_eq

/-- A client that fails to open a session has settled no version: everything that can fail comes
before it settles one. -/
theorem version_of_openAsClient_error {client : ClientState}
    (failed : openAsClient client session = .error failure last) :
    last.version = session.version := by
  by_cases role : session.role = .client
  · rw [openAsClient, requireRole_bind role] at failed
    cases written : client.encode client.version with
    | error refusal =>
      rw [written, ofResult_error_bind] at failed
      cases failed
      rfl
    | ok payload =>
      rw [written, ofResult_ok_bind] at failed
      rcases bind_eq_error failed with unsent | ⟨_, greeted, sent, failed⟩
      · exact version_of_send (after_of_error unsent)
      · have kept := version_of_send (after_of_ok sent)
        rcases bind_eq_error failed with unheard | ⟨frame, heard, expected, failed⟩
        · rw [version_of_expect_error unheard, kept]
        · have advances := (expect_eq_ok expected).1
          cases read : ServerState.decode client.version frame.payload with
          | error refusal =>
            rw [read, ofResult_error_bind] at failed
            cases failed
            rw [advances.version_eq, kept]
          | ok server =>
            rw [read, ofResult_ok_bind, modify_bind] at failed
            cases failed
  · rw [openAsClient, requireRole_refused role] at failed
    cases failed
    rfl

/-- The state of the client that a server is given, if it is given one. -/
def heardClient? (session : Session) : Option ClientState :=
  match expect .clientState session with
  | .ok frame _ => (ClientState.decode .current frame.payload).toOption
  | .error _ _ => none

/-- A server that fails to open a session has settled the version if it was given the state of the
client. By then it can fail in two ways more: its own state may not be written, or not be sent. -/
theorem version_of_openAsServer_error {server : ServerState} (role : session.role = .server)
    (fresh : session.version = none) (failed : openAsServer server session = .error failure last) :
    last.version = session.heardClient?.map fun client =>
      Version.negotiated client.version server.version := by
  rw [openAsServer_eq role] at failed
  rcases bind_eq_error failed with unheard | ⟨frame, heard, expected, failed⟩
  · rw [version_of_expect_error unheard, fresh, heardClient?, unheard]
    rfl
  · have advances := (expect_eq_ok expected).1
    have given : session.heardClient? = (ClientState.decode .current frame.payload).toOption := by
      rw [heardClient?, expected]
    cases read : ClientState.decode .current frame.payload with
    | error refusal =>
      rw [answerHello, read, ofResult_error_bind] at failed
      cases failed
      rw [given, read, advances.version_eq, fresh]
      rfl
    | ok client =>
      rw [given, read]
      rw [answerHello, read, ofResult_ok_bind, modify_bind] at failed
      cases written : server.encode (Version.negotiated client.version server.version) with
      | error refusal =>
        rw [written, ofResult_error_bind] at failed
        cases failed
        rfl
      | ok payload =>
        rw [written, ofResult_ok_bind] at failed
        rcases bind_eq_error failed with unsent | ⟨_, _, _, failed⟩
        · exact version_of_send (after_of_error unsent)
        · cases failed

/-- What a failed handshake leaves. A client that fails to open a session refuses every exchange
after it, whatever is called. A server that fails does so too if it was not given the state of the
client, and only then: otherwise the lower of the two versions is settled. -/
theorem refuses_of_failed_handshake (role : Role) (connection : Connection) (limit : UInt32) :
    (∀ client failure last,
      openAsClient client (opened role connection limit) = .error failure last →
        ∀ calls, (last.afterCalls calls).Refuses) ∧
    (∀ server failure last,
      openAsServer server (opened role connection limit) = .error failure last →
        ((∀ calls, (last.afterCalls calls).Refuses) ↔
          role = .client ∨ (opened role connection limit).heardClient? = none) ∧
        ∀ client, role = .server → (opened role connection limit).heardClient? = some client →
          last.version = some (Version.negotiated client.version server.version)) := by
  constructor
  · intro client failure last failed
    exact forall_refuses_iff.mpr (version_of_openAsClient_error failed)
  · intro server failure last failed
    rw [forall_refuses_iff]
    cases role with
    | client =>
      have other : (opened .client connection limit).role ≠ .server := nofun
      rw [openAsServer, requireRole_refused other] at failed
      cases failed
      refine ⟨⟨fun _ => .inl rfl, fun _ => rfl⟩, ?_⟩
      rintro _ ⟨⟩
    | server =>
      rw [version_of_openAsServer_error rfl rfl failed]
      constructor
      · simp
      · intro client _ heard
        rw [heard]
        rfl

end Session

/-- A server whose message of a failure is too long to be written. -/
def ServerState.verbose : ServerState :=
  { host with errorMessage := List.replicate 1025 'x' }

/-- A server whose message is too long can be written for no version. -/
theorem ServerState.encode_of_long {server : ServerState}
    (long : Limit.field < server.errorMessage.byteLength) (version : Version) :
    ∃ failure, server.encode version = .error failure := by
  cases written : server.encode version with
  | error failure => exact ⟨failure, rfl⟩
  | ok bytes =>
    obtain ⟨_, text⟩ := Encoding.written_of_joined written
      (.text .state Limit.field server.errorMessage) (by simp)
    rw [Encoding.text, if_pos long] at text
    cases text

/-- The message of the verbose server is longer than a field. -/
theorem ServerState.long_verbose : Limit.field < verbose.errorMessage.byteLength := by
  decide +kernel

namespace Session

/-- The session of a server to which a client of the latest version has stated who it is. -/
def greeted : Session :=
  opened .server (.carrying [((helloMessage (.visitor .current)).frame .client 0).encode])
    FrameHeader.standardLimit

/-- The greeted server is given the frame with the state of the client. -/
theorem expect_greeted :
    expect .clientState greeted = .ok ((helloMessage (.visitor .current)).frame .client 0)
      (greeted.reading [] (.empty FrameHeader.standardLimit) []) := by
  have fits : (helloMessage (.visitor .current)).Fits FrameHeader.standardLimit :=
    ⟨.inl rfl, by decide⟩
  exact expect_message fits nofun nofun rfl rfl rfl

/-- What the greeted server hears is that state, as far as it goes over the wire. -/
theorem heardClient?_greeted :
    greeted.heardClient? = some ((ClientState.visitor .current).onWire .current) := by
  have read : ClientState.decode .current ((helloMessage (.visitor .current)).frame .client 0).payload =
      .ok ((ClientState.visitor .current).onWire .current) :=
    ClientState.decode_encode (fun _ => rfl) rfl
  rw [heardClient?, expect_greeted]
  simp only [read]
  rfl

/-- A server that cannot write its own state fails, although it was given that of the client. -/
theorem openAsServer_verbose :
    ∃ failure last, openAsServer .verbose greeted = .error failure last := by
  cases given : openAsServer .verbose greeted with
  | error failure last => exact ⟨failure, last, rfl⟩
  | ok client last =>
    obtain ⟨payload, _, _, _, _, written, -⟩ := openAsServer_eq_ok rfl given
    obtain ⟨failure, refused⟩ := ServerState.encode_of_long ServerState.long_verbose
      (Version.negotiated client.version ServerState.verbose.version)
    rw [refused] at written
    cases written

/-- A client without an answer refuses every exchange, and so does a server without a greeting; a
server that was greeted and cannot write its own state does not. -/
theorem refuses_of_failed_handshake_verbose :
    (∃ failure last, openAsClient (.visitor .current)
        (opened .client (.carrying []) FrameHeader.standardLimit) = .error failure last ∧
      ∀ calls, (last.afterCalls calls).Refuses) ∧
    (∃ failure last, openAsServer .host
        (opened .server (.carrying []) FrameHeader.standardLimit) = .error failure last ∧
      ∀ calls, (last.afterCalls calls).Refuses) ∧
    ∃ failure last, openAsServer .verbose greeted = .error failure last ∧
      last.version = some .current ∧ ¬ ∀ calls, (last.afterCalls calls).Refuses := by
  obtain ⟨client, -⟩ :=
    refuses_of_failed_handshake .client (.carrying []) FrameHeader.standardLimit
  obtain ⟨-, server⟩ :=
    refuses_of_failed_handshake .server (.carrying []) FrameHeader.standardLimit
  obtain ⟨-, verbose⟩ := refuses_of_failed_handshake .server
    (.carrying [((helloMessage (.visitor .current)).frame .client 0).encode])
    FrameHeader.standardLimit
  have unanswered : openAsClient (.visitor .current)
      (opened .client (.carrying []) FrameHeader.standardLimit) = .error .connectionClosed _ := rfl
  have ungreeted : openAsServer .host
      (opened .server (.carrying []) FrameHeader.standardLimit) = .error .connectionClosed _ := rfl
  refine ⟨⟨_, _, unanswered, client _ _ _ unanswered⟩,
    ⟨_, _, ungreeted, (server _ _ _ ungreeted).1.mpr (.inr rfl)⟩, ?_⟩
  obtain ⟨failure, last, failed⟩ := openAsServer_verbose
  have settled := (verbose _ _ _ failed).2 _ rfl heardClient?_greeted
  refine ⟨failure, last, failed, settled, ?_⟩
  intro refuses
  rw [forall_refuses_iff.mp refuses] at settled
  cases settled

/-- Not every failed handshake leaves a session that refuses: a server whose own state cannot be
written has settled the version by then. -/
theorem not_forall_refuses_of_failed_handshake :
    ¬ ∀ (role : Role) (connection : Connection) (limit : UInt32) (server : ServerState)
      (failure : Failure) (last : Session),
      openAsServer server (opened role connection limit) = .error failure last →
        last.version = none ∧ ∀ calls, (last.afterCalls calls).Refuses := by
  intro claim
  obtain ⟨failure, last, failed⟩ := openAsServer_verbose
  have unsettled := (claim _ _ _ _ failure last failed).1
  rw [version_of_openAsServer_error rfl rfl failed, heardClient?_greeted] at unsettled
  cases unsettled

end Session

end SignalAccess

import SignalAccess.Proofs.Session.Progress

/-!
# Calls

Whoever holds a session may call its operations in any order, and go on calling them when one of them
has failed. What a call leaves is a session again: the checks in front of an operation change nothing
of it when they refuse, sending changes its connection only, and a request takes a number whether it
can be sent or not.

An operation is made of few parts. What each of these keeps, every call keeps, and so does everything
that a server does, the handshake included.
-/

namespace SignalAccess

open Session Operation

namespace Session

/-- An operation that is called, with what it is given. -/
inductive Call where
  | sendRequests (block : RequestBlock)
  | receiveRequests
  | sendReply (list : BlockList) (server : ServerState)
  | receiveReply
  | close

/-- The session that a call leaves, whether it succeeds or not. -/
def afterCall (session : Session) : Call → Session
  | .sendRequests block => (Session.sendRequests block).after session
  | .receiveRequests => Session.receiveRequests.after session
  | .sendReply list server => (Session.sendReply list server).after session
  | .receiveReply => Session.receiveReply.after session
  | .close => Session.close.after session

/-- The session that calls leave one after the other. -/
def afterCalls (session : Session) (calls : List Call) : Session := calls.foldl afterCall session

variable {α : Type} {session next : Session} {version : Version}

/-! ## Checks that refuse -/

/-- An operation of the other end is refused, and changes nothing. -/
theorem requireRole_refused {role : Role} (other : session.role ≠ role) (f : Unit → Operation α) :
    (requireRole role >>= f) session =
      .error (.protocol .state (.wrongRole session.role)) session := by
  simp only [requireRole, bind_assoc, get_bind, if_neg other]
  rfl

/-- Without a version that governs, an operation that needs one is refused, and changes nothing. -/
theorem requireVersion_refused (unsettled : session.version = none) (f : Version → Operation α) :
    (requireVersion >>= f) session = .error (.protocol .state .notNegotiated) session := by
  simp only [requireVersion, bind_assoc, get_bind, unsettled]
  rfl

/-! ## Calls that write -/

/-- The second session is the first one after it has written, and closed down perhaps. -/
def Writes (session next : Session) : Prop :=
  ∃ written isShut, next =
    { session with connection :=
        { session.connection with written := written, isShut := isShut } }

/-- A session that writes nothing is the same. -/
theorem Writes.refl (session : Session) : session.Writes session :=
  ⟨session.connection.written, session.connection.isShut, rfl⟩

/-- Writing goes on behind what was written. -/
theorem Writes.trans {last : Session} (first : session.Writes next) (second : next.Writes last) :
    session.Writes last := by
  obtain ⟨_, _, rfl⟩ := first
  obtain ⟨written, isShut, rfl⟩ := second
  exact ⟨written, isShut, rfl⟩

/-- Writing leaves the version of a session as it is. -/
theorem Writes.version_eq (writes : session.Writes next) : next.version = session.version := by
  obtain ⟨_, _, rfl⟩ := writes
  rfl

/-- Whether messages can be sent or not, only the connection changes. -/
theorem writes_send (messages : List Message) : (send messages).Leads Writes := by
  intro session
  cases framed : messages.mapM session.frame with
  | error failure =>
    have failed : send messages session = .error failure session := by
      rw [send, get_bind, framed, ofResult_error_bind]
    rw [after_of_error failed]
    exact .refl session
  | ok frames =>
    cases writable : session.connection.writeFailure with
    | none =>
      refine ⟨session.connection.written ++ frames.flatMap Frame.encode,
        session.connection.isShut, ?_⟩
      simp only [after, send, get_bind, framed, ofResult_ok_bind, Connection.write, writable]
      rfl
    | some code =>
      have failed : send messages session = .error (.system (.numbered code)) session := by
        simp only [send, get_bind, framed, ofResult_ok_bind, Connection.write, writable,
          ofResult_error_bind]
      rw [after_of_error failed]
      exact .refl session

/-- Closing down changes the connection only. -/
theorem writes_close : close.Leads Writes :=
  (writes_send _).bind Writes.trans fun _ session => ⟨session.connection.written, true, rfl⟩

/-- Requests that cannot be written are refused, and take no number. -/
theorem after_sendRequests_of_error {block : RequestBlock} {failure : Failure}
    (role : session.role = .client) (settled : session.version = some version)
    (refused : block.encode version = .error failure) :
    (sendRequests block).after session = session := by
  have failed : sendRequests block session = .error failure session := by
    rw [sendRequests, requireRole_bind role, requireVersion_bind settled, refused,
      ofResult_error_bind]
  exact after_of_error failed

/-- Requests that can be written take the next number, whether they can be sent or not. -/
theorem writes_sendRequests {block : RequestBlock} {payload : Bytes}
    (role : session.role = .client) (settled : session.version = some version)
    (written : block.encode version = .ok payload) :
    ({ session with sequence := session.sequence + 1 } : Session).Writes
      ((sendRequests block).after session) := by
  have sends : (send [⟨.requestBlock, 0, payload⟩] >>= fun _ => do
      return (← get).sequence : Operation UInt32).Leads Writes :=
    (writes_send _).bind Writes.trans fun _ => .refl
  have goesOn := sends { session with sequence := session.sequence + 1 }
  rw [after, sendRequests, requireRole_bind role, requireVersion_bind settled, written,
    ofResult_ok_bind, modify_bind]
  exact goesOn

/-! ## What operations keep -/

/-- Whether the peer has closed down or not, the session is left that the operation left. -/
theorem after_unlessClosed (operation : Operation α) (session : Session) :
    (unlessClosed operation).after session = operation.after session := by
  simp only [after, unlessClosed]
  cases operation session with
  | ok value next => rfl
  | error failure next => cases failure <;> rfl

/-- A relation that all parts of an operation lead to but those that take a number: reading a frame,
sending messages, settling the version, and closing down. -/
structure Steady (related : Session → Session → Prop) : Prop extends Onward related where
  reads : nextFrame.Leads related
  sends : ∀ messages, (send messages).Leads related
  settles : ∀ (session : Session) (client server : Version),
    related session (settle client server session)
  shut : ∀ session : Session, related session
    { session with connection := { session.connection with isShut := true } }

/-- A relation that all parts of an operation lead to. -/
structure Kept (related : Session → Session → Prop) : Prop extends Steady related where
  numbered : ∀ (session : Session) number, related session { session with sequence := number }

variable {related : Session → Session → Prop}

/-- A server opens a session along every steady relation. -/
theorem Steady.leads_openAsServer (steady : Steady related) (server : ServerState) :
    (openAsServer server).Leads related := by
  refine steady.leads_bind (steady.leads_requireRole _) fun _ =>
    steady.leads_bind (steady.leads_expect steady.reads _) fun frame =>
      steady.leads_bind (steady.leads_ofResult _) fun client => ?_
  have settled : (modify (settle client.version server.version) : Operation PUnit).Leads related :=
    fun session => steady.settles session client.version server.version
  exact steady.leads_bind settled fun _ =>
    steady.leads_bind (steady.leads_ofResult _) fun payload =>
      steady.leads_bind (steady.sends _) fun _ => steady.leads_pure client

/-- A server sends a reply along every steady relation. -/
theorem Steady.leads_sendReply (steady : Steady related) (list : BlockList) (server : ServerState) :
    (sendReply list server).Leads related :=
  steady.leads_bind (steady.leads_requireRole _) fun _ =>
    steady.leads_bind steady.leads_requireVersion fun _ =>
      steady.leads_bind (steady.leads_ofResult _) fun _ =>
        steady.leads_bind (steady.leads_ofResult _) fun _ => steady.sends _

/-- A session is closed along every steady relation. -/
theorem Steady.leads_close (steady : Steady related) : close.Leads related :=
  steady.leads_bind (steady.sends _) fun _ => steady.shut

/-- A client sends requests, and takes a number for them, along every relation that is kept. -/
theorem Kept.leads_sendRequests (kept : Kept related) (block : RequestBlock) :
    (sendRequests block).Leads related := by
  have numbers : (modify fun session : Session =>
      { session with sequence := session.sequence + 1 } : Operation PUnit).Leads related :=
    fun session => kept.numbered session (session.sequence + 1)
  exact kept.leads_bind (kept.leads_requireRole _) fun _ =>
    kept.leads_bind kept.leads_requireVersion fun version =>
      kept.leads_bind (kept.leads_ofResult _) fun payload => kept.leads_bind numbers fun _ =>
        kept.leads_bind (kept.sends _) fun _ =>
          kept.leads_bind kept.leads_get fun session => kept.leads_pure session.sequence

/-- A server receives requests, and their number, along every relation that is kept. -/
theorem Kept.leads_receiveRequests (kept : Kept related) : receiveRequests.Leads related := by
  refine kept.leads_bind (kept.leads_requireRole _) fun _ =>
    kept.leads_bind kept.leads_requireVersion fun version => kept.leads_bind ?_ fun received => ?_
  · intro session
    rw [after_unlessClosed]
    exact kept.leads_expect kept.reads _ session
  · cases received with
    | none => exact kept.leads_pure none
    | some frame =>
      exact kept.leads_bind (fun session => kept.numbered session frame.header.sequence) fun _ =>
        kept.leads_bind (kept.leads_ofResult _) fun block => kept.leads_pure (some block)

/-- What the parts of a call lead to, the call leads to. -/
theorem Kept.afterCall (kept : Kept related) (session : Session) (call : Call) :
    related session (session.afterCall call) := by
  cases call with
  | sendRequests block => exact kept.leads_sendRequests block session
  | receiveRequests => exact kept.leads_receiveRequests session
  | sendReply list server => exact kept.leads_sendReply list server session
  | receiveReply => exact kept.leads_receiveReply kept.reads session
  | close => exact kept.leads_close session

/-! ## What a server does -/

/-- What is done on the session of a server: the handshake, which may be tried again, and calls. -/
inductive ServerStep where
  | handshake (server : ServerState)
  | call (call : Call)

/-- The session that a step leaves, whether it succeeds or not. -/
def afterStep (session : Session) : ServerStep → Session
  | .handshake server => (openAsServer server).after session
  | .call call => session.afterCall call

/-- The session that steps leave one after the other. -/
def afterSteps (session : Session) (steps : List ServerStep) : Session :=
  steps.foldl afterStep session

/-- What a server does leads along every relation that is kept. -/
theorem Kept.afterStep (kept : Kept related) (session : Session) (step : ServerStep) :
    related session (session.afterStep step) := by
  cases step with
  | handshake server => exact kept.leads_openAsServer server session
  | call call => exact kept.afterCall session call

/-- What the parts lead to, everything that a server does leads to. -/
theorem Kept.afterSteps (kept : Kept related) (session : Session) (steps : List ServerStep) :
    related session (session.afterSteps steps) := by
  induction steps generalizing session with
  | nil => exact kept.refl session
  | cons step steps inductionHypothesis =>
    exact kept.trans (kept.afterStep session step) (inductionHypothesis (session.afterStep step))

/-- The second session is of the same end as the first one, and governed by a version if that is. -/
def StaysSettled (session next : Session) : Prop :=
  next.role = session.role ∧ (session.version ≠ none → next.version ≠ none)

/-- Nothing that a server does makes another end of it, or leaves it without a version. -/
theorem kept_staysSettled : Kept StaysSettled where
  refl _ := ⟨rfl, id⟩
  trans first second := ⟨second.1.trans first.1, second.2 ∘ first.2⟩
  reads session := by
    have advances := advancing_nextFrame session
    rw [StaysSettled, advances.role_eq, advances.version_eq]
    exact ⟨rfl, id⟩
  sends messages session := by
    obtain ⟨_, _, same⟩ := writes_send messages session
    rw [same]
    exact ⟨rfl, id⟩
  numbered _ _ := ⟨rfl, id⟩
  shut _ := ⟨rfl, id⟩
  settles _ _ _ := ⟨rfl, nofun⟩

end Session

end SignalAccess

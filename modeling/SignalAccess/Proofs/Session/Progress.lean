import SignalAccess.Proofs.Session.Exchange

/-!
# The frames that remain

The frames that remain for a session are those that are pending and, behind them, those that its
buffer and the rest of its stream complete in front of the first header that is refused. The bytes of
the stream may be anybody's: nothing here supposes that a peer keeps to the protocol.

Reading takes the first frame that remains, and nothing else of a session changes. A failure to read
may lose frames that a refused piece completed, but it never brings one back. So an operation that
only reads advances along the stream, whether it succeeds or not; and it does because its parts do.
-/

namespace SignalAccess

open Session Operation

/-- The bytes that an arrival brings. -/
def Arrival.bytes : Arrival → Bytes
  | .piece bytes => bytes
  | .failure _ => []

namespace Connection

/-- The bytes that are still to be read. -/
def incoming (connection : Connection) : Bytes := connection.arrivals.flatMap Arrival.bytes

/-- The frames that these bytes complete in front of the first header that is refused. -/
def frames (connection : Connection) (limit : UInt32) : List Frame :=
  ((FrameBuffer.empty limit).extend connection.incoming).completed

end Connection

namespace Session

/-- The frames that remain for a session. -/
def remaining (session : Session) : List Frame :=
  session.pending ++ (session.buffer.extend session.connection.incoming).completed

/-- The second session is the first one further along the stream. -/
structure Advances (session next : Session) : Prop where
  reads : ∃ arrivals buffer pending, next = session.reading arrivals buffer pending
  remaining : next.remaining <:+ session.remaining

variable {session next last : Session}

/-- A session that stays where it is advances. -/
theorem Advances.refl (session : Session) : session.Advances session :=
  ⟨⟨session.connection.arrivals, session.buffer, session.pending, rfl⟩, List.suffix_rfl⟩

/-- Advancing goes on from where it ended. -/
theorem Advances.trans (first : session.Advances next) (second : next.Advances last) :
    session.Advances last := by
  obtain ⟨_, _, _, rfl⟩ := first.reads
  obtain ⟨arrivals, buffer, pending, rfl⟩ := second.reads
  exact ⟨⟨arrivals, buffer, pending, rfl⟩, second.remaining.trans first.remaining⟩

/-- A session that advances is of the same end. -/
theorem Advances.role_eq (advances : session.Advances next) : next.role = session.role := by
  obtain ⟨_, _, _, rfl⟩ := advances.reads
  rfl

/-- A session that advances is governed by the same version. -/
theorem Advances.version_eq (advances : session.Advances next) : next.version = session.version := by
  obtain ⟨_, _, _, rfl⟩ := advances.reads
  rfl

/-- A session that advances keeps the version that the server stated. -/
theorem Advances.serverVersion_eq (advances : session.Advances next) :
    next.serverVersion = session.serverVersion := by
  obtain ⟨_, _, _, rfl⟩ := advances.reads
  rfl

/-- A session that advances keeps its number. -/
theorem Advances.sequence_eq (advances : session.Advances next) :
    next.sequence = session.sequence := by
  obtain ⟨_, _, _, rfl⟩ := advances.reads
  rfl

/-- A session that advances writes nothing. -/
theorem Advances.written_eq (advances : session.Advances next) :
    next.connection.written = session.connection.written := by
  obtain ⟨_, _, _, rfl⟩ := advances.reads
  rfl

/-! ## Taking a frame -/

/-- A frame that is given is the first that remained. A failure gives none. -/
def Takes (session : Session) : EStateM.Result Failure Session Frame → Prop
  | .ok frame next => session.Advances next ∧ session.remaining = frame :: next.remaining
  | .error _ next => session.Advances next

/-- A step along the stream that gives no frame may come first. -/
theorem Takes.of_advances {result : EStateM.Result Failure Session Frame}
    (advances : session.Advances next) (same : session.remaining = next.remaining)
    (takes : next.Takes result) : session.Takes result := by
  cases result with
  | ok frame last => exact ⟨advances.trans takes.1, same.trans takes.2⟩
  | error failure last => exact advances.trans takes

/-- The end of the stream is a failure that leaves the session as it is. -/
theorem endOfStream_eq {α : Type} (session : Session) :
    ∃ failure, (endOfStream : Operation α) session = .error failure session := by
  cases idle : session.buffer.ensureIdle <;> simp [endOfStream, idle]

/-- Waiting for a frame takes the first that remains, by induction on what arrives. An arrival without
bytes changes nothing of what remains. A piece either completes frames, the first of which is taken,
or goes to the buffer; behind a refused piece nothing remains. -/
theorem takes_awaitFrame {arrivals : List Arrival} (none : session.pending = [])
    (arrived : session.connection.arrivals = arrivals) :
    session.Takes (awaitFrame arrivals session) := by
  induction arrivals generalizing session with
  | nil =>
    obtain ⟨failure, ended⟩ := @endOfStream_eq Frame session
    rw [awaitFrame, ended]
    exact .refl session
  | cons arrival arrivals inductionHypothesis =>
    have stream : session.connection.incoming = arrival.bytes ++ arrivals.flatMap Arrival.bytes := by
      rw [Connection.incoming, arrived, List.flatMap_cons]
    -- The session behind an arrival that brings no bytes.
    let skipped := session.reading arrivals session.buffer session.pending
    have skips (nothing : arrival.bytes = []) : session.Advances skipped := by
      refine ⟨⟨_, _, _, rfl⟩, ?_⟩
      rw [remaining, remaining, stream, nothing]
      exact List.suffix_rfl
    cases arrival with
    | failure code => exact skips rfl
    | piece bytes =>
      cases bytes with
      | nil =>
        obtain ⟨failure, ended⟩ := @endOfStream_eq Frame skipped
        have same : awaitFrame (.piece [] :: arrivals) session = .error failure skipped := ended
        rw [same]
        exact skips rfl
      | cons first others =>
        rw [awaitFrame_piece (List.cons_ne_nil first others)]
        rcases pushed : session.buffer.push (first :: others) with
          ⟨failure | _ | ⟨frame, pending⟩, buffer⟩
        · have nothing := FrameBuffer.completed_of_push_error pushed (arrivals.flatMap Arrival.bytes)
          have behind : (session.reading arrivals buffer session.pending).remaining = [] :=
            List.append_eq_nil_iff.mpr ⟨none, nothing⟩
          refine ⟨⟨_, _, _, rfl⟩, ?_⟩
          rw [behind]
          exact List.nil_suffix
        · have completed := FrameBuffer.completed_of_push pushed (arrivals.flatMap Arrival.bytes)
          have same : session.remaining =
              (session.reading arrivals buffer session.pending).remaining := by
            rw [remaining, stream]
            exact congrArg (session.pending ++ ·) completed
          refine Takes.of_advances ⟨⟨_, _, _, rfl⟩, same ▸ List.suffix_rfl⟩ same ?_
          exact inductionHypothesis none rfl
        · have completed := FrameBuffer.completed_of_push pushed (arrivals.flatMap Arrival.bytes)
          have given : session.remaining =
              frame :: (session.reading arrivals buffer pending).remaining := by
            rw [remaining, stream, none, List.nil_append]
            exact completed
          exact ⟨⟨⟨_, _, _, rfl⟩, given ▸ List.suffix_cons frame _⟩, given⟩

/-- The next frame of a session is the first that remains for it. -/
theorem takes_nextFrame (session : Session) : session.Takes (nextFrame session) := by
  cases waiting : session.pending with
  | nil =>
    rw [nextFrame_of_pending_nil waiting]
    exact takes_awaitFrame waiting rfl
  | cons frame others =>
    have given : session.remaining =
        frame :: ({ session with pending := others } : Session).remaining := by
      rw [remaining, waiting]
      rfl
    rw [nextFrame_of_pending_cons waiting]
    exact ⟨⟨⟨_, _, _, rfl⟩, given ▸ List.suffix_cons frame _⟩, given⟩

/-! ## Operations that only read -/

namespace Operation

variable {α β : Type} {operation other : Operation α} {f : α → Operation β}

/-- The session behind an operation that succeeds is the one that it gives. -/
theorem after_of_ok {a : α} (done : operation session = .ok a next) :
    operation.after session = next := by
  rw [after, done]

/-- The session behind an operation that fails is the one that it fails with. -/
theorem after_of_error {failure : Failure} (failed : operation session = .error failure next) :
    operation.after session = next := by
  rw [after, failed]

/-- An operation that fails in its first part leaves what this part left. -/
theorem after_bind_of_error {failure : Failure} (failed : operation session = .error failure next) :
    (operation >>= f).after session = next := by
  simp only [after, bind, EStateM.bind, failed]

/-- Behind an operation that succeeds, what goes on decides the session. -/
theorem after_bind_of_ok {a : α} (done : operation session = .ok a next) :
    (operation >>= f).after session = (f a).after next := by
  simp only [after, bind_of_eq_ok done]

/-- An operation that leads from every session to a related one, whatever it gives. -/
def Leads (related : Session → Session → Prop) (operation : Operation α) : Prop :=
  ∀ session, related session (operation.after session)

/-- Where an operation and what goes on behind it lead to related sessions, both together do. -/
theorem Leads.bind {related : Session → Session → Prop}
    (transitive : ∀ {first second third : Session}, related first second → related second third →
      related first third)
    (first : operation.Leads related) (others : ∀ a, (f a).Leads related) :
    (operation >>= f : Operation β).Leads related := by
  intro session
  have left := first session
  cases given : operation session with
  | ok a next =>
    rw [after_of_ok given] at left
    rw [after_bind_of_ok given]
    exact transitive left (others a next)
  | error failure next =>
    rw [after_of_error given] at left
    rw [after_bind_of_error given]
    exact left

/-- A choice between two operations leads along a relation if both do. -/
theorem Leads.ite {related : Session → Session → Prop} {c : Prop} [Decidable c]
    (yes : operation.Leads related) (no : other.Leads related) :
    (if c then operation else other).Leads related := by
  split
  · exact yes
  · exact no

/-- A relation that goes on from one session to the next. What the parts of an operation lead to, the
operation leads to. -/
structure Onward (related : Session → Session → Prop) : Prop where
  refl : ∀ session, related session session
  trans : ∀ {first second third : Session}, related first second → related second third →
    related first third

variable {related : Session → Session → Prop}

/-- Operations in a row lead onward if each of them does. -/
theorem Onward.leads_bind (onward : Onward related) (first : operation.Leads related)
    (others : ∀ a, (f a).Leads related) : (operation >>= f : Operation β).Leads related :=
  first.bind onward.trans others

/-- Giving a value leads onward. -/
theorem Onward.leads_pure (onward : Onward related) (a : α) :
    (pure a : Operation α).Leads related := onward.refl

/-- Failing leads onward. -/
theorem Onward.leads_throw (onward : Onward related) (failure : Failure) :
    (throw failure : Operation α).Leads related := onward.refl

/-- Looking at the session leads onward. -/
theorem Onward.leads_get (onward : Onward related) : (get : Operation Session).Leads related :=
  onward.refl

/-- Taking a result leads onward. -/
theorem Onward.leads_ofResult (onward : Onward related) (result : Except Failure α) :
    (ofResult result).Leads related := by
  cases result with
  | ok a => exact onward.leads_pure a
  | error failure => exact onward.leads_throw failure

/-- The check that an operation is that of the right end leads onward. -/
theorem Onward.leads_requireRole (onward : Onward related) (role : Role) :
    (requireRole role).Leads related :=
  onward.leads_bind onward.leads_get fun _ => .ite (onward.leads_pure _) (onward.leads_throw _)

/-- The check that a version governs leads onward. -/
theorem Onward.leads_requireVersion (onward : Onward related) : requireVersion.Leads related := by
  refine onward.leads_bind onward.leads_get fun session => ?_
  cases session.version with
  | none => exact onward.leads_throw _
  | some version => exact onward.leads_pure version

/-- The check that a frame has the number of the session leads onward. -/
theorem Onward.leads_requireSequence (onward : Onward related) (frame : Frame) :
    (requireSequence frame).Leads related :=
  onward.leads_bind onward.leads_get fun _ => .ite (onward.leads_pure _) (onward.leads_throw _)

/-- Waiting for a frame of some kind leads onward if reading a frame does. -/
theorem Onward.leads_expect (onward : Onward related) (reads : nextFrame.Leads related)
    (kind : MessageKind) : (expect kind).Leads related := by
  refine onward.leads_bind reads fun frame => onward.leads_bind onward.leads_get fun session => ?_
  exact .ite (onward.leads_throw _)
    (.ite (onward.leads_throw _) (.ite (onward.leads_throw _) (onward.leads_pure frame)))

/-- Receiving a reply reads frames, and does nothing else to a session. -/
theorem Onward.leads_receiveReply (onward : Onward related) (reads : nextFrame.Leads related) :
    receiveReply.Leads related := by
  refine onward.leads_bind (onward.leads_requireRole _) fun _ =>
    onward.leads_bind onward.leads_requireVersion fun version => ?_
  refine onward.leads_bind (onward.leads_expect reads _) fun first =>
    onward.leads_bind (onward.leads_requireSequence first) fun _ => ?_
  refine onward.leads_bind (onward.leads_ofResult _) fun server =>
    onward.leads_bind onward.leads_get fun session => ?_
  refine .ite (onward.leads_throw _) (onward.leads_bind (onward.leads_expect reads _) fun second => ?_)
  refine onward.leads_bind (onward.leads_requireSequence second) fun _ => ?_
  exact onward.leads_bind (onward.leads_ofResult _) fun list => onward.leads_pure (server, list)

/-- An operation that only reads. -/
abbrev Advancing (operation : Operation α) : Prop := operation.Leads Advances

/-- Advancing leads onward. -/
theorem onward_advances : Onward Advances := ⟨Advances.refl, Advances.trans⟩

/-- Taking a result advances a session. -/
theorem advancing_ofResult (result : Except Failure α) : (ofResult result).Advancing :=
  onward_advances.leads_ofResult result

/-- Reading a frame advances a session. -/
theorem advancing_nextFrame : nextFrame.Advancing := by
  intro session
  have takes := takes_nextFrame session
  cases given : nextFrame session with
  | ok frame next =>
    rw [given] at takes
    rw [after_of_ok given]
    exact takes.1
  | error failure next =>
    rw [given] at takes
    rw [after_of_error given]
    exact takes

/-- Waiting for a frame of some kind advances a session. -/
theorem advancing_expect (kind : MessageKind) : (expect kind).Advancing :=
  onward_advances.leads_expect advancing_nextFrame kind

/-- Receiving a reply only reads, wherever it fails. -/
theorem advancing_receiveReply : receiveReply.Advancing :=
  onward_advances.leads_receiveReply advancing_nextFrame

end Operation

/-! ## What was taken -/

/-- A frame that was expected is the first that remained, is of its kind, and travels towards the
session. -/
theorem expect_eq_ok {kind : MessageKind} {frame : Frame}
    (given : expect kind session = .ok frame next) :
    session.Advances next ∧ session.remaining = frame :: next.remaining ∧
      frame.header.kind? = some kind ∧ frame.header.isToClient = (session.role == .client) := by
  obtain ⟨first, -, directed, kinded⟩ := checked_of_expect given
  have takes := takes_nextFrame session
  rw [first] at takes
  obtain ⟨advances, taken⟩ := takes
  rw [advances.role_eq] at directed
  exact ⟨advances, taken, kinded, directed⟩

/-- The check of a number passes only where the frame has that of the session, which it leaves as it
is. -/
theorem requireSequence_eq_ok {frame : Frame}
    (passed : requireSequence frame session = .ok ⟨⟩ next) :
    frame.header.sequence = session.sequence ∧ session = next := by
  rw [requireSequence, get_bind] at passed
  split at passed
  · next same =>
    cases passed
    exact ⟨same, rfl⟩
  · cases passed

end Session

end SignalAccess

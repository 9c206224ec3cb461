import SignalAccess.Proofs.Frame.Reassembly
import SignalAccess.Proofs.Wire.ReadBack
import SignalAccess.Session.Basic

/-!
# What has arrived and what it decides

A session reads its stream piece by piece. An operation is decided by what has arrived if it returns
the same result whatever arrives later, and leaves that unread; it is starved if the next thing to
arrive is the next thing that it reads. A blocking read returns exactly when the operation is decided.

While the frames of the peer are on their way, a session holds the frames that it took too early, a
part of the next frame in its buffer, and pieces that it has not read; the rest is still missing. The
next frame is decided as soon as its last byte has arrived, and it is the next frame that was sent.
-/

namespace SignalAccess

namespace Session

variable {α β : Type}

/-- The session after more of its stream has arrived. -/
def arriving (session : Session) (later : List Arrival) : Session :=
  { session with connection :=
      { session.connection with arrivals := session.connection.arrivals ++ later } }

/-- The session after it has read: its arrivals, its buffer and its pending frames are others. -/
def reading (session : Session) (arrivals : List Arrival) (buffer : FrameBuffer)
    (pending : List Frame) : Session :=
  { session with
    connection := { session.connection with arrivals := arrivals }
    buffer := buffer
    pending := pending }

/-- A session to which nothing arrives is the same. -/
@[simp] theorem arriving_nil (session : Session) : session.arriving [] = session := by
  simp [arriving]

namespace Operation

/-! What the parts of an operation do, one by one. -/

/-- A value is given by the session as it is. -/
@[simp] theorem pure_apply (value : α) (session : Session) :
    (pure value : Operation α) session = .ok value session := rfl

/-- A failure leaves the session as it is. -/
@[simp] theorem throw_apply (failure : Failure) (session : Session) :
    (throw failure : Operation α) session = .error failure session := rfl

/-- An operation that looks at the session goes on with it. -/
@[simp] theorem get_bind (f : Session → Operation β) (session : Session) :
    (get >>= f : Operation β) session = f session session := rfl

/-- An operation that sets a session goes on from there. -/
@[simp] theorem set_bind (next : Session) (f : PUnit → Operation β) (session : Session) :
    (set next >>= f : Operation β) session = f ⟨⟩ next := rfl

/-- An operation that changes its session goes on from the changed one. -/
@[simp] theorem modify_bind (g : Session → Session) (f : PUnit → Operation β) (session : Session) :
    (modify g >>= f : Operation β) session = f ⟨⟩ (g session) := rfl

/-- Behind a result that succeeds, an operation goes on with its value. -/
@[simp] theorem ofResult_ok_bind (value : α) (f : α → Operation β) (session : Session) :
    (ofResult (.ok value) >>= f : Operation β) session = f value session := rfl

/-- Behind a result that fails, nothing goes on. -/
@[simp] theorem ofResult_error_bind (failure : Failure) (f : α → Operation β) (session : Session) :
    (ofResult (.error failure) >>= f : Operation β) session = .error failure session := rfl

/-- An operation goes on behind a part that succeeds. -/
theorem bind_of_eq_ok {operation : Operation α} {session next : Session} {value : α}
    (done : operation session = .ok value next) (f : α → Operation β) :
    (operation >>= f) session = f value next := by
  simp only [bind, EStateM.bind, done]

/-- What an operation gives, with more of the stream left to be read. -/
def leaving (later : List Arrival) :
    EStateM.Result Failure Session α → EStateM.Result Failure Session α
  | .ok value session => .ok value (session.arriving later)
  | .error failure session => .error failure (session.arriving later)

/-- The operation gives a result whatever arrives later, and leaves what arrives later unread. -/
def Gives (operation : Operation α) (session : Session)
    (result : EStateM.Result Failure Session α) : Prop :=
  ∀ later, operation (session.arriving later) = leaving later result

/-- What has arrived decides the operation. -/
def Decided (operation : Operation α) (session : Session) : Prop :=
  operation.Gives session (operation session)

/-- The operation reads all that has arrived, and then the next thing to arrive. -/
def Starved (operation : Operation α) (session : Session) : Prop :=
  ∀ code later, ∃ rest, operation (session.arriving (.failure code :: later)) =
    .error (.system (.numbered code)) rest

/-- What an operation gives whatever arrives later, it gives now. -/
theorem Gives.eq {operation : Operation α} {session : Session}
    {result : EStateM.Result Failure Session α} (gives : operation.Gives session result) :
    operation session = result := by
  have now := gives []
  rw [arriving_nil] at now
  cases result <;> simpa [leaving] using now

/-- An operation that gives a result is decided. -/
theorem Gives.decided {operation : Operation α} {session : Session}
    {result : EStateM.Result Failure Session α} (gives : operation.Gives session result) :
    operation.Decided session := by
  rw [Decided, gives.eq]
  exact gives

/-- A starved operation is not decided: it tells two failures of the next read apart. -/
theorem Starved.not_decided {operation : Operation α} {session : Session}
    (starved : operation.Starved session) : ¬ operation.Decided session := by
  intro decided
  obtain ⟨first, failsFirst⟩ := starved 0 []
  obtain ⟨second, failsSecond⟩ := starved 1 []
  have givesFirst := decided [.failure 0]
  have givesSecond := decided [.failure 1]
  rw [failsFirst] at givesFirst
  rw [failsSecond] at givesSecond
  cases now : operation session with
  | ok value rest => simp [now, leaving] at givesFirst
  | error failure rest =>
    simp only [now, leaving, EStateM.Result.error.injEq] at givesFirst givesSecond
    have same := givesFirst.1.trans givesSecond.1.symm
    simp at same

/-- An operation goes on with what the first one gives. -/
theorem Gives.bind {operation : Operation α} {f : α → Operation β} {session next : Session}
    {value : α} {result : EStateM.Result Failure Session β}
    (first : operation.Gives session (.ok value next)) (second : (f value).Gives next result) :
    Gives (operation >>= f) session result := by
  intro later
  have now := first later
  simp only [leaving] at now
  simp only [Bind.bind, EStateM.bind, now]
  exact second later

/-- A starved operation starves whatever goes on behind it. -/
theorem Starved.bind {operation : Operation α} {session : Session}
    (starved : operation.Starved session) (f : α → Operation β) :
    Starved (operation >>= f) session := by
  intro code later
  obtain ⟨rest, fails⟩ := starved code later
  exact ⟨rest, by simp only [Bind.bind, EStateM.bind, fails]⟩

/-- An operation is starved if it goes on with a starved one. -/
theorem Gives.bind_starved {operation : Operation α} {f : α → Operation β}
    {session next : Session} {value : α} (first : operation.Gives session (.ok value next))
    (second : (f value).Starved next) : Starved (operation >>= f) session := by
  intro code later
  obtain ⟨rest, fails⟩ := second code later
  have now := first (.failure code :: later)
  simp only [leaving] at now
  exact ⟨rest, by simp only [Bind.bind, EStateM.bind, now, fails]⟩

end Operation

/-! ## Frames on their way -/

/-- The frames that a session is going to get: those that are pending, and those that its buffer, the
pieces that have arrived and the bytes that are missing make up together. The part of a frame in the
buffer is what the buffer comes to hold when it is given that part. -/
def Receives (limit : UInt32) (session : Session) (frames : List Frame) (missing : Bytes) : Prop :=
  ∃ (part : Bytes) (coming : List Frame) (pieces : List Bytes),
    frames = session.pending ++ coming ∧
    (∀ frame ∈ coming, frame.Admitted limit) ∧
    (FrameBuffer.holding limit part).drain = (.ok [], session.buffer) ∧
    session.connection.arrivals = pieces.map .piece ∧ [] ∉ pieces ∧
    part ++ pieces.flatten ++ missing = coming.flatMap Frame.encode

variable {limit : UInt32} {session : Session} {frames : List Frame} {missing : Bytes}

/-- A piece that arrives is no longer missing. -/
theorem Receives.arrive {piece : Bytes} (received : session.Receives limit frames (piece ++ missing))
    (some : piece ≠ []) : (session.arriving [.piece piece]).Receives limit frames missing := by
  obtain ⟨part, coming, pieces, rfl, admitted, held, arrived, nonempty, stream⟩ := received
  refine ⟨part, coming, pieces ++ [piece], rfl, admitted, held, ?_, ?_, ?_⟩
  · simp [arriving, arrived]
  · simp [nonempty, some.symm]
  · simpa [List.append_assoc] using stream

/-- Where no frame is to come, no byte is missing. -/
theorem Receives.missing_eq_nil (received : session.Receives limit [] missing) : missing = [] := by
  obtain ⟨part, coming, pieces, none, -, -, -, -, stream⟩ := received
  obtain ⟨-, rfl⟩ := List.nil_eq_append_iff.mp none
  exact (List.append_eq_nil_iff.mp stream).2

/-- Frames that are sent are missing behind those that were sent before. -/
theorem Receives.send {more : List Frame} (received : session.Receives limit frames missing)
    (admitted : ∀ frame ∈ more, frame.Admitted limit) :
    session.Receives limit (frames ++ more) (missing ++ more.flatMap Frame.encode) := by
  obtain ⟨part, coming, pieces, rfl, known, held, arrived, nonempty, stream⟩ := received
  refine ⟨part, coming ++ more, pieces, by simp, ?_, held, arrived, nonempty, ?_⟩
  · intro frame member
    rcases List.mem_append.mp member with old | new
    · exact known frame old
    · exact admitted frame new
  · simp [← stream]

open Operation

/-- Where no frame is pending, one is awaited from what arrives. -/
theorem nextFrame_of_pending_nil (none : session.pending = []) :
    nextFrame session = awaitFrame session.connection.arrivals session := by
  simp [nextFrame, none]

/-- The first frame that is pending is given. -/
theorem nextFrame_of_pending_cons {frame : Frame} {others : List Frame}
    (some : session.pending = frame :: others) :
    nextFrame session = .ok frame { session with pending := others } := by
  simp only [nextFrame, get_bind, some, set_bind, pure_apply]

/-- A piece is pushed into the buffer. If it completes no frame, the next piece is read. -/
theorem awaitFrame_piece {piece : Bytes} (some : piece ≠ []) (arrivals : List Arrival)
    (session : Session) :
    awaitFrame (.piece piece :: arrivals) session =
      match session.buffer.push piece with
      | (.ok [], buffer) =>
        awaitFrame arrivals (session.reading arrivals buffer session.pending)
      | (.ok (frame :: pending), buffer) => .ok frame (session.reading arrivals buffer pending)
      | (.error failure, buffer) =>
        .error failure (session.reading arrivals buffer session.pending) := by
  obtain ⟨first, others, rfl⟩ := List.exists_cons_of_ne_nil some
  rcases pushed : session.buffer.push (first :: others) with ⟨failure | _ | ⟨frame, pending⟩, buffer⟩ <;>
    simp only [awaitFrame, modify_bind, get_bind, pushed, ofResult_ok_bind, ofResult_error_bind,
      pure_apply, reading]

/-- Reading a frame changes nothing of a session but what it has read, whatever arrives. -/
theorem exists_reading_of_awaitFrame {arrivals : List Arrival} {frame : Frame} {next : Session}
    (given : awaitFrame arrivals session = .ok frame next) :
    ∃ rest buffer pending, next = session.reading rest buffer pending := by
  induction arrivals generalizing session with
  | nil => cases idle : session.buffer.ensureIdle <;> simp [awaitFrame, endOfStream, idle] at given
  | cons arrival arrivals inductionHypothesis =>
    match arrival with
    | .failure code => simp [awaitFrame] at given
    | .piece [] =>
      cases idle : session.buffer.ensureIdle <;> simp [awaitFrame, endOfStream, idle] at given
    | .piece (first :: others) =>
      rw [awaitFrame_piece (List.cons_ne_nil first others)] at given
      rcases pushed : session.buffer.push (first :: others) with
        ⟨failure | _ | ⟨completed, pending⟩, buffer⟩
      · simp [pushed] at given
      · rw [pushed] at given
        obtain ⟨rest, last, pending, rfl⟩ := inductionHypothesis given
        exact ⟨rest, last, pending, rfl⟩
      · simp only [pushed, EStateM.Result.ok.injEq] at given
        exact ⟨arrivals, buffer, pending, given.2.symm⟩

/-- A session that gives a frame has read, and is the same otherwise. -/
theorem exists_reading_of_nextFrame {frame : Frame} {next : Session}
    (given : nextFrame session = .ok frame next) :
    ∃ rest buffer pending, next = session.reading rest buffer pending := by
  cases waiting : session.pending with
  | nil =>
    rw [nextFrame_of_pending_nil waiting] at given
    exact exists_reading_of_awaitFrame given
  | cons first others =>
    rw [nextFrame_of_pending_cons waiting] at given
    cases given
    exact ⟨session.connection.arrivals, session.buffer, others, rfl⟩

/-- An operation behind a guard succeeds where the guard lets it through. -/
theorem passed_of_guard {α : Type} {refused : Prop} [Decidable refused] {failure : Failure}
    {operation : Operation α} {value : α} {next : Session}
    (given : (if refused then throw failure else operation : Operation α) session = .ok value next) :
    ¬ refused ∧ operation session = .ok value next := by
  by_cases stopped : refused
  · rw [if_pos stopped] at given
    cases given
  · rw [if_neg stopped] at given
    exact ⟨stopped, given⟩

/-- An expected frame is the next frame, and has passed all checks. -/
theorem checked_of_expect {kind : MessageKind} {frame : Frame} {next : Session}
    (given : expect kind session = .ok frame next) :
    nextFrame session = .ok frame next ∧ frame.header.isClosedown = false ∧
      frame.header.isToClient = (next.role == .client) ∧ frame.header.kind? = some kind := by
  obtain ⟨first, middle, taken, checked⟩ := bind_eq_ok given
  rw [get_bind] at checked
  obtain ⟨lasting, checked⟩ := passed_of_guard checked
  obtain ⟨directed, checked⟩ := passed_of_guard checked
  obtain ⟨kinded, checked⟩ := passed_of_guard checked
  cases checked
  exact ⟨taken, by simpa using lasting, by simpa using directed, Classical.not_not.mp kinded⟩

/-- A frame of the kind that is waited for is the next one. -/
theorem nextFrame_of_expect {kind : MessageKind} {frame : Frame} {next : Session}
    (given : expect kind session = .ok frame next) : nextFrame session = .ok frame next :=
  (checked_of_expect given).1

/-- A frame that is given is the first of those that the pieces read so far complete. By induction on
the pieces, whatever stream they are of. -/
theorem exists_read_of_awaitFrame {part : Bytes} {pieces : List Bytes} {frame : Frame}
    {next : Session} (held : (FrameBuffer.holding limit part).drain = (.ok [], session.buffer))
    (nonempty : [] ∉ pieces) (given : awaitFrame (pieces.map .piece) session = .ok frame next) :
    ∃ front pending buffer, front <+: pieces.flatten ∧
      (FrameBuffer.holding limit (part ++ front)).drain = (.ok (frame :: pending), buffer) := by
  induction pieces generalizing session part with
  | nil =>
    cases idle : session.buffer.ensureIdle <;> simp [awaitFrame, endOfStream, idle] at given
  | cons piece pieces inductionHypothesis =>
    have some : piece ≠ [] := by
      rintro rfl
      exact nonempty List.mem_cons_self
    have others : [] ∉ pieces := fun member => nonempty (List.mem_cons_of_mem piece member)
    have pushed := FrameBuffer.push_of_drain held piece
    rw [List.map_cons, awaitFrame_piece some, pushed] at given
    rcases drained : (FrameBuffer.holding limit (part ++ piece)).drain with
      ⟨failure | _ | ⟨first, pending⟩, buffer⟩
    · simp [drained] at given
    · rw [drained] at given
      obtain ⟨front, pending, last, begun, completed⟩ := inductionHypothesis drained others given
      refine ⟨piece ++ front, pending, last, ?_, by rwa [← List.append_assoc]⟩
      rw [List.flatten_cons]
      exact (List.prefix_append_right_inj piece).mpr begun
    · simp only [drained, EStateM.Result.ok.injEq] at given
      obtain ⟨rfl, -⟩ := given
      exact ⟨piece, pending, buffer, List.prefix_append _ _, drained⟩

/-- The pieces that have arrived decide the next frame if they complete it; otherwise they are all
read, and the next thing to arrive is read as well. By induction on the pieces: each leaves a part of
the next frame in the buffer until one completes it. -/
theorem nextFrame_decided_or_starved {part : Bytes} {pieces : List Bytes} {coming : List Frame}
    (admitted : ∀ frame ∈ coming, frame.Admitted limit) (none : session.pending = [])
    (held : (FrameBuffer.holding limit part).drain = (.ok [], session.buffer))
    (arrived : session.connection.arrivals = pieces.map .piece) (nonempty : [] ∉ pieces)
    (stream : part ++ pieces.flatten ++ missing = coming.flatMap Frame.encode) :
    (∃ first others arrivals buffer pending, coming = first :: others ∧
      nextFrame.Gives session (.ok first (session.reading arrivals buffer pending)) ∧
      (session.reading arrivals buffer pending).Receives limit others missing) ∨
    (nextFrame.Starved session ∧ (missing = [] → coming = [])) := by
  induction pieces generalizing session part with
  | nil =>
    refine .inr ⟨?_, ?_⟩
    · intro code later
      refine ⟨(session.arriving (.failure code :: later)).reading later session.buffer [], ?_⟩
      have fresh : (session.arriving (.failure code :: later)).pending = [] := none
      rw [nextFrame_of_pending_nil fresh]
      simp [arriving, arrived, awaitFrame, reading, none]
    · rintro rfl
      have whole : part = coming.flatMap Frame.encode := by simpa using stream
      rw [whole, FrameBuffer.drain_encode_whole admitted] at held
      exact Except.ok.inj (congrArg Prod.fst held)
  | cons piece pieces inductionHypothesis =>
    have some : piece ≠ [] := by
      rintro rfl
      exact nonempty List.mem_cons_self
    have others : [] ∉ pieces := fun member => nonempty (List.mem_cons_of_mem piece member)
    have begun : part ++ piece <+: coming.flatMap Frame.encode :=
      ⟨pieces.flatten ++ missing, by rw [← stream]; simp⟩
    obtain ⟨done, more, kept, buffer, rfl, split, drained, keptHeld, -⟩ :=
      FrameBuffer.drain_front admitted begun
    have pushed : session.buffer.push piece = (.ok done, buffer) :=
      (FrameBuffer.push_of_drain held piece).trans drained
    have rest : kept ++ pieces.flatten ++ missing = more.flatMap Frame.encode := by
      have both : part ++ piece ++ (pieces.flatten ++ missing) =
          (done ++ more).flatMap Frame.encode := by
        rw [← stream]
        simp
      rw [split, List.flatMap_append, List.append_assoc] at both
      rw [List.append_assoc]
      exact List.append_cancel_left both
    have moreAdmitted : ∀ frame ∈ more, frame.Admitted limit := fun frame member =>
      admitted frame (List.mem_append_right done member)
    cases done with
    | nil =>
      let next := session.reading (pieces.map .piece) buffer []
      have same (later : List Arrival) :
          nextFrame (session.arriving later) = nextFrame (next.arriving later) := by
        have fresh : (session.arriving later).pending = [] := none
        have freshNext : (next.arriving later).pending = [] := rfl
        have read := awaitFrame_piece some (pieces.map .piece ++ later) (session.arriving later)
        rw [nextFrame_of_pending_nil fresh, nextFrame_of_pending_nil freshNext]
        simp only [arriving, arrived, none, pushed, List.map_cons, List.cons_append] at read ⊢
        exact read
      rcases @inductionHypothesis next kept rfl keptHeld rfl others rest with
        ⟨first, behind, arrivals, buffer, pending, rfl, gives, received⟩ | ⟨starved, complete⟩
      · exact .inl ⟨first, behind, arrivals, buffer, pending, rfl,
          fun later => (same later).trans (gives later), received⟩
      · refine .inr ⟨fun code later => ?_, complete⟩
        rw [same]
        exact starved code later
    | cons first done =>
      refine .inl ⟨first, done ++ more, pieces.map .piece, buffer, done, rfl, ?_, ?_⟩
      · intro later
        have fresh : (session.arriving later).pending = [] := none
        have read := awaitFrame_piece some (pieces.map .piece ++ later) (session.arriving later)
        rw [nextFrame_of_pending_nil fresh]
        simp only [arriving, arrived, pushed, List.map_cons, List.cons_append] at read ⊢
        exact read
      · exact ⟨kept, more, pieces, rfl, moreAdmitted, keptHeld, rfl, others, rest⟩

/-- A session that receives frames is given the first of them once it has arrived, and receives the
others then. As long as it has not arrived the session is starved, so something must be missing. -/
theorem Receives.nextFrame_cases (received : session.Receives limit frames missing) :
    (∃ first others arrivals buffer pending, frames = first :: others ∧
      nextFrame.Gives session (.ok first (session.reading arrivals buffer pending)) ∧
      (session.reading arrivals buffer pending).Receives limit others missing) ∨
    (nextFrame.Starved session ∧ (missing = [] → frames = [])) := by
  obtain ⟨part, coming, pieces, rfl, admitted, held, arrived, nonempty, stream⟩ := received
  cases waiting : session.pending with
  | nil => exact nextFrame_decided_or_starved admitted waiting held arrived nonempty stream
  | cons first others =>
    refine .inl ⟨first, others ++ coming, session.connection.arrivals, session.buffer, others, rfl,
      ?_, ⟨part, coming, pieces, rfl, admitted, held, arrived, nonempty, stream⟩⟩
    intro later
    have next : (session.arriving later).pending = first :: others := waiting
    rw [nextFrame_of_pending_cons next]
    rfl

/-- A session that receives nothing is starved. -/
theorem Receives.starved (received : session.Receives limit [] missing) :
    nextFrame.Starved session := by
  rcases received.nextFrame_cases with ⟨first, others, _, _, _, impossible, -⟩ | ⟨starved, -⟩
  · cases impossible
  · exact starved

namespace Operation

/-- The expected frame is the next frame, if it is of its kind and travels towards the session. -/
theorem Gives.expect {kind : MessageKind} {frame : Frame} {next : Session}
    (taken : nextFrame.Gives session (.ok frame next)) (lasting : kind ≠ .closedown)
    (kinded : frame.header.kind? = some kind)
    (directed : frame.header.isToClient = (next.role == .client)) :
    (expect kind).Gives session (.ok frame next) := by
  refine taken.bind fun later => ?_
  have goesOn : frame.header.isClosedown = false := by
    simp [FrameHeader.isClosedown, kinded, lasting]
  have sameRole : (next.arriving later).role = next.role := rfl
  rw [get_bind, sameRole, directed]
  simp [goesOn, kinded, leaving]

/-- An operation that goes on is not closed down. -/
theorem Gives.unlessClosed {operation : Operation α} {value : α} {next : Session}
    (gives : operation.Gives session (.ok value next)) :
    (unlessClosed operation).Gives session (.ok (some value) next) := by
  intro later
  have now := gives later
  simp only [leaving] at now
  simp only [Operation.unlessClosed, now, leaving]

/-- An operation that is watched for the other end closing down starves where it does by itself. -/
theorem Starved.unlessClosed {operation : Operation α} (starved : operation.Starved session) :
    (unlessClosed operation).Starved session := by
  intro code later
  obtain ⟨rest, fails⟩ := starved code later
  exact ⟨rest, by simp only [Operation.unlessClosed, fails]⟩

/-- Checks that pass leave an operation to go on. -/
theorem Gives.of_eq {operation other : Operation α} {result : EStateM.Result Failure Session α}
    (same : ∀ later, operation (session.arriving later) = other (session.arriving later))
    (gives : other.Gives session result) : operation.Gives session result :=
  fun later => (same later).trans (gives later)

/-- An operation starves if it is the same as one that does, whatever arrives. -/
theorem Starved.of_eq {operation other : Operation α}
    (same : ∀ later, operation (session.arriving later) = other (session.arriving later))
    (starved : other.Starved session) : operation.Starved session := by
  intro code later
  rw [same]
  exact starved code later

end Operation

end Session

end SignalAccess

import SignalAccess.Proofs.Frame.Boundaries
import SignalAccess.Proofs.Session.Calls
import SignalAccess.Proofs.Session.Run

/-!
# Where the stream of a session ends

A session has taken a number of frames from the front of its stream. The rest is unread: the frames
that are pending, the bytes that its buffer holds, and those that are still to be read. Whatever is
called, what is unread loses frames at its front only, so it always starts between two frames.

Taking the next frame is decided by what is unread. Either a frame stands in front and is taken, or
nothing is unread and the stream has ended, or the stream ends inside a frame, or a header is refused.
A server that receives requests reports the end of the exchange for the second of these and for a frame
that closes down, and for no other reason.
-/

namespace SignalAccess

open Session Operation

/-- The arrival brings some bytes. -/
def Arrival.IsPiece (arrival : Arrival) : Prop := ∃ bytes, bytes ≠ [] ∧ arrival = .piece bytes

namespace Session

/-- The bytes of its stream that a session has not given as frames. -/
def unread (session : Session) : Bytes :=
  session.pending.flatMap Frame.encode ++ (session.buffer.held ++ session.connection.incoming)

/-- What is unread behind a reading is what the reading leaves. -/
theorem unread_reading (session : Session) (arrivals : List Arrival) (buffer : FrameBuffer)
    (pending : List Frame) :
    (session.reading arrivals buffer pending).unread =
      pending.flatMap Frame.encode ++ (buffer.held ++ arrivals.flatMap Arrival.bytes) := rfl

/-- A session between two calls that reads a stream in pieces. -/
structure Listens (limit : UInt32) (session : Session) : Prop where
  buffer : session.buffer.AtRest limit
  pending : ∀ frame ∈ session.pending, frame.Admitted limit
  arrivals : ∀ arrival ∈ session.connection.arrivals, arrival.IsPiece

/-- What taking a frame makes of a session. A frame is taken from the front of what was unread. The
connection is closed if nothing was; a frame that is not complete stays unread, and so does a header
that is refused, with the frames in front of it perhaps lost. -/
def TakesFrame (limit : UInt32) (session : Session) : EStateM.Result Failure Session Frame → Prop
  | .ok frame next => next.Listens limit ∧ frame.Admitted limit ∧
      session.unread = frame.encode ++ next.unread
  | .error failure next => next.Listens limit ∧
      ((session.unread = [] ∧ next.unread = [] ∧ failure = .connectionClosed) ∨
        (Inside limit session.unread ∧ next.unread = session.unread ∧
          failure ≠ .connectionClosed) ∨
        (FramesUpTo limit session.unread next.unread ∧ StartsMalformed limit next.unread ∧
          failure ≠ .connectionClosed))

variable {limit : UInt32} {session next : Session}

/-- Only what is unread matters to taking a frame. -/
theorem TakesFrame.of_eq {result : EStateM.Result Failure Session Frame}
    (same : session.unread = next.unread) (takes : next.TakesFrame limit result) :
    session.TakesFrame limit result := by
  cases result <;> simpa only [TakesFrame, same] using takes

/-- The end of the stream closes the connection between two frames only. -/
theorem takesFrame_endOfStream (listens : session.Listens limit) (none : session.pending = [])
    (ended : session.connection.arrivals = []) :
    session.TakesFrame limit (endOfStream session) := by
  have left : session.unread = session.buffer.held := by
    simp [unread, none, Connection.incoming, ended]
  by_cases idle : session.buffer.isIdle = true
  · have closed : endOfStream session = (.error .connectionClosed session :
        EStateM.Result Failure Session Frame) := by
      simp [endOfStream, FrameBuffer.ensureIdle, idle]
    have nothing : session.unread = [] := left.trans (FrameBuffer.isIdle_iff_held.mp idle)
    rw [closed]
    exact ⟨listens, .inl ⟨nothing, nothing, rfl⟩⟩
  · have refused : ∃ fault, endOfStream session = (.error (.protocol .header fault) session :
        EStateM.Result Failure Session Frame) := by
      simp [endOfStream, FrameBuffer.ensureIdle, idle]
    obtain ⟨fault, failed⟩ := refused
    have lasting : Failure.protocol .header fault ≠ .connectionClosed := by simp
    rw [failed]
    refine ⟨listens, .inr ?_⟩
    rcases listens.buffer.cases with nothing | inside | malformed
    · exact absurd (FrameBuffer.isIdle_iff_held.mpr nothing) idle
    · exact .inl ⟨left ▸ inside, rfl, lasting⟩
    · exact .inr ⟨.refl limit _, left ▸ malformed, lasting⟩

/-- Waiting for a frame, by induction on what arrives. Each piece goes behind what the buffer holds,
and what is unread stays the same until a frame comes out. -/
theorem takesFrame_awaitFrame {arrivals : List Arrival} (listens : session.Listens limit)
    (none : session.pending = []) (arrived : session.connection.arrivals = arrivals) :
    session.TakesFrame limit (awaitFrame arrivals session) := by
  induction arrivals generalizing session with
  | nil =>
    rw [awaitFrame]
    exact takesFrame_endOfStream listens none arrived
  | cons arrival arrivals inductionHypothesis =>
    obtain ⟨first, pieces⟩ := List.forall_mem_cons.mp (arrived ▸ listens.arrivals)
    obtain ⟨piece, some, rfl⟩ := first
    rw [awaitFrame_piece some, FrameBuffer.push_eq_drain]
    obtain ⟨rests, drained⟩ := (listens.buffer.toSound.extend piece).drain
    rw [FrameBuffer.held_extend] at drained
    have stream : session.unread =
        (session.buffer.held ++ piece) ++ arrivals.flatMap Arrival.bytes := by
      simp [unread, none, Connection.incoming, arrived, Arrival.bytes]
    rcases pushed : (session.buffer.extend piece).drain with
      ⟨failure | _ | ⟨frame, pending⟩, buffer⟩
    · rw [pushed] at rests drained
      obtain ⟨upTo, malformed, notClosed⟩ := drained
      refine ⟨⟨rests, listens.pending, pieces⟩, .inr (.inr ⟨?_, ?_, notClosed⟩)⟩
      · rw [stream, unread_reading, none]
        exact upTo.append _
      · rw [unread_reading, none]
        exact malformed.append _
    · rw [pushed] at rests drained
      refine .of_eq ?_ (inductionHypothesis ⟨rests, listens.pending, pieces⟩ none rfl)
      rw [stream, drained.2, unread_reading, none]
      rfl
    · rw [pushed] at rests drained
      obtain ⟨admitted, split⟩ := drained
      obtain ⟨frameAdmitted, others⟩ := List.forall_mem_cons.mp admitted
      refine ⟨⟨rests, others, pieces⟩, frameAdmitted, ?_⟩
      rw [stream, split, unread_reading, List.flatMap_cons, List.append_assoc, List.append_assoc]

/-- Taking the next frame is decided by what is unread. -/
theorem takesFrame_nextFrame (listens : session.Listens limit) :
    session.TakesFrame limit (nextFrame session) := by
  cases waiting : session.pending with
  | nil =>
    rw [nextFrame_of_pending_nil waiting]
    exact takesFrame_awaitFrame listens waiting rfl
  | cons frame others =>
    obtain ⟨admitted, rest⟩ := List.forall_mem_cons.mp (waiting ▸ listens.pending)
    rw [nextFrame_of_pending_cons waiting]
    refine ⟨⟨listens.buffer, rest, listens.arrivals⟩, admitted, ?_⟩
    simp [unread, waiting]

/-! ## Calls -/

/-- A session that listens goes on listening, and what is unread loses frames at its front only. -/
def Passes (limit : UInt32) (session next : Session) : Prop :=
  session.Listens limit → next.Listens limit ∧ FramesUpTo limit session.unread next.unread

/-- Everything that a server does passes its stream on, or leaves it. -/
theorem kept_passes (limit : UInt32) : Kept (Passes limit) where
  refl session listens := ⟨listens, .refl limit session.unread⟩
  trans first second listens := by
    obtain ⟨middle, front⟩ := first listens
    obtain ⟨last, back⟩ := second middle
    exact ⟨last, front.trans back⟩
  reads session listens := by
    have takes := takesFrame_nextFrame listens
    cases given : nextFrame session with
    | ok frame next =>
      rw [given] at takes
      obtain ⟨goesOn, admitted, split⟩ := takes
      rw [after_of_ok given, split]
      exact ⟨goesOn, admitted.framesUpTo next.unread⟩
    | error failure next =>
      rw [given] at takes
      rw [after_of_error given]
      refine ⟨takes.1, ?_⟩
      rcases takes.2 with ⟨none, still, -⟩ | ⟨-, same, -⟩ | ⟨upTo, -⟩
      · rw [none, still]
        exact .refl limit []
      · rw [same]
        exact .refl limit session.unread
      · exact upTo
  sends messages session listens := by
    obtain ⟨_, _, same⟩ := writes_send messages session
    rw [same]
    exact ⟨⟨listens.buffer, listens.pending, listens.arrivals⟩, .refl limit session.unread⟩
  numbered session _ listens :=
    ⟨⟨listens.buffer, listens.pending, listens.arrivals⟩, .refl limit session.unread⟩
  settles session _ _ listens :=
    ⟨⟨listens.buffer, listens.pending, listens.arrivals⟩, .refl limit session.unread⟩
  shut session listens :=
    ⟨⟨listens.buffer, listens.pending, listens.arrivals⟩, .refl limit session.unread⟩

/-- A session in front of its handshake has its whole stream unread. -/
theorem listens_opened {role : Role} {connection : Connection}
    (pieces : ∀ arrival ∈ connection.arrivals, arrival.IsPiece) :
    (opened role connection limit).Listens limit ∧
      (opened role connection limit).unread = connection.incoming :=
  ⟨⟨FrameBuffer.atRest_empty limit, nofun, pieces⟩, rfl⟩

/-- Whatever a server has done, it has taken some frames from the front of its stream. -/
theorem listens_afterSteps {connection : Connection}
    (pieces : ∀ arrival ∈ connection.arrivals, arrival.IsPiece) (steps : List ServerStep) :
    let session := (opened .server connection limit).afterSteps steps
    session.Listens limit ∧ FramesUpTo limit connection.incoming session.unread := by
  obtain ⟨fresh, whole⟩ := @listens_opened limit .server connection pieces
  have reached := (kept_passes limit).afterSteps (opened .server connection limit) steps fresh
  rwa [whole] at reached

/-! ## The end of the exchange -/

/-- Where no frame is given, the expected one fails to come for the same reason. -/
theorem expect_of_nextFrame_error {kind : MessageKind} {failure : Failure}
    (failed : nextFrame session = .error failure next) :
    expect kind session = .error failure next := by
  simp only [expect, bind, EStateM.bind, failed]

/-- An expected frame fails to come because the connection is closed in two cases: no frame is given
for that reason, or the frame that is given closes down. -/
theorem expect_eq_closed_iff {kind : MessageKind} :
    expect kind session = .error .connectionClosed next ↔
      nextFrame session = .error .connectionClosed next ∨
        ∃ frame, nextFrame session = .ok frame next ∧ frame.header.isClosedown = true := by
  cases given : nextFrame session with
  | error failure last =>
    simp [expect_of_nextFrame_error given]
  | ok frame last =>
    have goesOn : expect kind session = (if frame.header.isClosedown then throw .connectionClosed
        else if frame.header.isToClient != (last.role == .client) then
          throw (.protocol .header .wrongDirection)
        else if frame.header.kind? ≠ some kind then
          throw (.protocol .header (.unexpectedMessage kind frame.header.kind?))
        else return frame : Operation Frame) last := by
      rw [expect, bind_of_eq_ok given, get_bind]
    rw [goesOn]
    by_cases closes : frame.header.isClosedown = true
    · simp [closes]
    · rw [if_neg closes]
      split
      · simp [closes]
      · split <;> simp [closes]

/-- A server reports the end of the exchange exactly if its connection is closed. -/
theorem receiveRequests_eq_none_iff {version : Version} (role : session.role = .server)
    (settled : session.version = some version) :
    receiveRequests session = .ok none next ↔
      expect .requestBlock session = .error .connectionClosed next := by
  cases given : expect .requestBlock session with
  | error failure last =>
    rw [receiveRequests_of_expect_error role settled given]
    cases failure <;> simp
  | ok frame last =>
    rw [receiveRequests_of_expect role settled given, takeRequests, modify_bind]
    cases RequestBlock.decode version frame.payload <;> simp

namespace Listens

variable {version : Version}

/-- A server reports the end of the exchange only if its stream has ended, or if the next frame closes
down. -/
theorem cases_of_receiveRequests_none (listens : session.Listens limit)
    (role : session.role = .server) (settled : session.version = some version)
    (ended : receiveRequests session = .ok none next) :
    session.unread = [] ∨ StartsClosing limit session.unread := by
  have takes := takesFrame_nextFrame listens
  rcases expect_eq_closed_iff.mp ((receiveRequests_eq_none_iff role settled).mp ended) with
    closed | ⟨frame, given, closes⟩
  · rw [closed] at takes
    rcases takes.2 with ⟨nothing, -⟩ | ⟨-, -, other⟩ | ⟨-, -, other⟩
    · exact .inl nothing
    · exact absurd rfl other
    · exact absurd rfl other
  · rw [given] at takes
    exact .inr ⟨frame, next.unread, takes.2.2, takes.2.1, closes⟩

/-- A server reports the end of the exchange if its stream has ended, and for a frame that closes down
unless a header is refused that arrives with it. -/
theorem exists_receiveRequests_none (listens : session.Listens limit)
    (role : session.role = .server) (settled : session.version = some version)
    (wellFormed : ¬ HoldsMalformed limit session.unread)
    (ends : session.unread = [] ∨ StartsClosing limit session.unread) :
    ∃ next, receiveRequests session = .ok none next := by
  have takes := takesFrame_nextFrame listens
  suffices closed : ∃ next, expect .requestBlock session = .error .connectionClosed next by
    obtain ⟨next, closed⟩ := closed
    exact ⟨next, (receiveRequests_eq_none_iff role settled).mpr closed⟩
  cases given : nextFrame session with
  | ok frame next =>
    rw [given] at takes
    obtain ⟨-, admitted, split⟩ := takes
    refine ⟨next, expect_eq_closed_iff.mpr (.inr ⟨frame, given, ?_⟩)⟩
    rcases ends with nothing | ⟨first, rest, starts, firstAdmitted, closes⟩
    · rw [nothing, Frame.encode, List.append_assoc] at split
      exact absurd split.symm (FrameHeader.encode_append_ne_nil _ _)
    · obtain ⟨rfl, -⟩ := firstAdmitted.encode_append_inj admitted (starts.symm.trans split)
      exact closes
  | error failure next =>
    rw [given] at takes
    rcases takes.2 with ⟨-, -, rfl⟩ | ⟨inside, -⟩ | ⟨upTo, malformed, -⟩
    · exact ⟨next, expect_eq_closed_iff.mpr (.inl given)⟩
    · rcases ends with nothing | ⟨frame, rest, starts, admitted, -⟩
      · exact absurd nothing inside.ne_nil
      · exact absurd starts (inside.ne_encode_append admitted rest)
    · exact absurd ⟨next.unread, upTo, malformed⟩ wellFormed

/-- A server whose stream ends inside the next frame fails to receive requests. -/
theorem exists_receiveRequests_error (listens : session.Listens limit)
    (role : session.role = .server) (settled : session.version = some version)
    (inside : Inside limit session.unread) :
    ∃ failure next, receiveRequests session = .error failure next := by
  have takes := takesFrame_nextFrame listens
  cases given : nextFrame session with
  | ok frame next =>
    rw [given] at takes
    exact absurd takes.2.2 (inside.ne_encode_append takes.2.1 next.unread)
  | error failure next =>
    rw [given] at takes
    have lasting : failure ≠ .connectionClosed := by
      rcases takes.2 with ⟨nothing, -⟩ | ⟨-, -, other⟩ | ⟨-, -, other⟩
      · exact absurd nothing inside.ne_nil
      · exact other
      · exact other
    rw [receiveRequests_of_expect_error role settled (expect_of_nextFrame_error given)]
    cases failure with
    | connectionClosed => exact absurd rfl lasting
    | _ => exact ⟨_, next, rfl⟩

end Listens

/-- How a server meets the end of its stream. Its peer sends any bytes in any pieces, and the server
has done anything on its session that settled a version. Some frames were taken then from the front of
the stream, and the rest is unread. If the server reports the end of the exchange, the stream has ended
or the next frame closes down; and if one of these holds it reports it, unless a header is refused
somewhere in the stream. Of a stream that ends inside a frame it reports the end only for a frame that
closes down in front; and once that part of a frame is all that is unread, receiving requests fails,
whatever is done before it is tried again. -/
theorem receiveRequests_ends {connection : Connection} {limit : UInt32}
    (pieces : ∀ arrival ∈ connection.arrivals, arrival.IsPiece) {steps : List ServerStep}
    (settled : ((opened .server connection limit).afterSteps steps).version ≠ none) :
    let session := (opened .server connection limit).afterSteps steps
    FramesUpTo limit connection.incoming session.unread ∧
    (∀ next, receiveRequests session = .ok none next →
      session.unread = [] ∨ StartsClosing limit session.unread) ∧
    (¬ HoldsMalformed limit connection.incoming →
      session.unread = [] ∨ StartsClosing limit session.unread →
        ∃ next, receiveRequests session = .ok none next) ∧
    ∀ part, FramesUpTo limit connection.incoming part → Inside limit part →
      (∀ next, receiveRequests session = .ok none next → StartsClosing limit session.unread) ∧
      (session.unread = part → ∀ later, ∃ failure next,
        receiveRequests (session.afterSteps later) = .error failure next) := by
  intro session
  obtain ⟨listens, upTo⟩ := @listens_afterSteps limit connection pieces steps
  have role : session.role = .server :=
    (kept_staysSettled.afterSteps (opened .server connection limit) steps).1
  obtain ⟨version, governs⟩ := Option.ne_none_iff_exists'.mp settled
  have ends (next : Session) (ended : receiveRequests session = .ok none next) :
      session.unread = [] ∨ StartsClosing limit session.unread :=
    listens.cases_of_receiveRequests_none role governs ended
  refine ⟨upTo, ends, ?_, fun part whole inside => ⟨?_, ?_⟩⟩
  · intro wellFormed
    exact listens.exists_receiveRequests_none role governs
      fun malformed => wellFormed (malformed.behind upTo)
  · intro next ended
    rcases ends next ended with nothing | closing
    · exact absurd (nothing ▸ upTo) (inside.not_framesUpTo_nil whole)
    · exact closing
  · rintro rfl later
    obtain ⟨goesOn, behind⟩ := (kept_passes limit).afterSteps session later listens
    obtain ⟨sameRole, stays⟩ := kept_staysSettled.afterSteps session later
    obtain ⟨laterVersion, laterGoverns⟩ := Option.ne_none_iff_exists'.mp (stays settled)
    have same : (session.afterSteps later).unread = session.unread :=
      inside.eq_of_framesUpTo behind
    exact goesOn.exists_receiveRequests_error (sameRole.trans role) laterGoverns (same ▸ inside)

end Session

/-- The connection of a server that a client greets before some pieces arrive. -/
def Connection.greeting (pieces : List Bytes) : Connection :=
  .carrying (((helloMessage (.visitor .current)).frame .client 0).encode :: pieces)

namespace Session

/-- A server of such a connection has the pieces still to be read when it has opened the session. -/
theorem exists_written_of_greeting (pieces : List Bytes) : ∃ written,
    (opened .server (.greeting pieces) FrameHeader.standardLimit).afterSteps [.handshake .host] =
      ⟨.server, ⟨pieces.map .piece, written, none, false⟩, .empty FrameHeader.standardLimit, [],
        some .current, .current, 0⟩ := by
  have fits : (helloMessage (.visitor .current)).Fits FrameHeader.standardLimit :=
    ⟨.inl rfl, by decide⟩
  let fresh := opened .server (.greeting pieces) FrameHeader.standardLimit
  let heard := fresh.reading (pieces.map .piece) (.empty FrameHeader.standardLimit) []
  have greeted : expect .clientState fresh =
      .ok ((helloMessage (.visitor .current)).frame .client 0) heard :=
    expect_message fits nofun nofun rfl rfl rfl
  have answered := @answerHello_eq heard (.visitor .current) .host _ _ rfl rfl rfl rfl rfl
    (by decide)
  have opens := @openAsServer_eq fresh .host rfl
  rw [bind_of_eq_ok greeted, answered] at opens
  exact ⟨_, after_of_ok opens⟩

/-- A client that breaks off in its second header never seems to have closed down. -/
theorem receiveRequests_ends_cut :
    let session := (opened .server (.greeting [[0]]) FrameHeader.standardLimit).afterSteps
      [.handshake .host]
    session.version ≠ none ∧ session.unread = [0] ∧
      ∀ later, ∃ failure next, receiveRequests (session.afterSteps later) = .error failure next := by
  intro session
  obtain ⟨written, reached⟩ := exists_written_of_greeting [[0]]
  have pieces : ∀ arrival ∈ (Connection.greeting [[0]]).arrivals, arrival.IsPiece := by
    intro arrival member
    simp only [Connection.greeting, Connection.carrying, List.map_cons, List.map_nil,
      List.mem_cons, List.not_mem_nil, or_false] at member
    rcases member with rfl | rfl
    · exact ⟨_, by decide, rfl⟩
    · exact ⟨_, by decide, rfl⟩
  have settled : session.version ≠ none := by
    rw [show session = _ from reached]
    nofun
  have left : session.unread = [0] := by
    rw [show session = _ from reached]
    rfl
  have inside : Inside FrameHeader.standardLimit session.unread := by
    rw [left]
    exact .header (by decide) (by decide)
  obtain ⟨upTo, -, -, cut⟩ := receiveRequests_ends pieces settled
  exact ⟨settled, left, (cut session.unread upTo inside).2 rfl⟩

end Session

end SignalAccess

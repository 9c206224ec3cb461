import SignalAccess.Frame.Buffer

/-!
# Streams in pieces

The pieces of a stream are pushed one by one until one of them is refused. What a buffer does next is
decided by the bytes it holds, and further bytes behind them change nothing of it; so the frames that
come out are those of the stream itself, except for the frames that the refused piece completed.

Two ways of cutting one stream therefore agree on whether and how it is refused, and on the frames
handed out and lost together. They hand out the same frames exactly when they lose equally many.
-/

namespace SignalAccess

namespace FrameBuffer

/-- The buffer with a further piece of the stream, of which nothing is handed out yet. -/
def extend (buffer : FrameBuffer) (piece : Bytes) : FrameBuffer :=
  { buffer with bytes := buffer.bytes ++ piece }

/-- The frames that a buffer's bytes complete in front of a refused header, if there is any. -/
def completed (buffer : FrameBuffer) : List Frame :=
  match taken : buffer.step with
  | .wait => []
  | .refuse _ => []
  | .advance next =>
    have : next.measure < buffer.measure := by simpa [taken] using measure_step buffer
    next.completed
  | .deliver frame next =>
    have : next.measure < buffer.measure := by simpa [taken] using measure_step buffer
    frame :: next.completed
termination_by buffer.measure

/-- What comes of pieces that are pushed one by one. -/
structure Delivery where
  /-- The frames that were handed out. -/
  frames : List Frame
  /-- Why a piece was refused, if one was. Nothing is pushed behind it. -/
  refusal : Option Failure
  /-- The frames that the refused piece completed and that were not handed out. -/
  lost : List Frame
  buffer : FrameBuffer

/-- What a push of all pieces at once would give: the frames, or the refusal. -/
def Delivery.outcome (delivery : Delivery) : Except Failure (List Frame) :=
  match delivery.refusal with
  | none => .ok delivery.frames
  | some failure => .error failure

/-- Pushes the pieces of a stream one by one. -/
def pushAll (buffer : FrameBuffer) : List Bytes → Delivery
  | [] => ⟨[], none, [], buffer⟩
  | piece :: pieces =>
    match buffer.push piece with
    | (.ok frames, next) =>
      let rest := next.pushAll pieces
      { rest with frames := frames ++ rest.frames }
    | (.error failure, next) => ⟨[], some failure, (buffer.extend piece).completed, next⟩

/-- A push puts bytes behind those of the buffer and drains it. -/
theorem push_eq_drain (buffer : FrameBuffer) (piece : Bytes) :
    buffer.push piece = (buffer.extend piece).drain := rfl

/-- Putting nothing behind changes nothing. -/
theorem extend_nil (buffer : FrameBuffer) : buffer.extend [] = buffer := by
  simp [extend]

/-- Two pieces may be put behind at once. -/
theorem extend_extend (buffer : FrameBuffer) (first second : Bytes) :
    (buffer.extend first).extend second = buffer.extend (first ++ second) := by
  simp [extend]

/-! ## One step -/

/-- A complete header is read as such whatever follows it. -/
theorem decode?_append {bytes : Bytes} {header : FrameHeader}
    (decoded : FrameHeader.decode? bytes = some header) (more : Bytes) :
    FrameHeader.decode? (bytes ++ more) = some header := by
  unfold FrameHeader.decode? at decoded
  split at decoded
  · exact decoded
  · cases decoded

/-- What a buffer does next it does with further bytes behind its own, too. Only a buffer that waits
may do something else. -/
theorem step_extend (buffer : FrameBuffer) (piece : Bytes) :
    match buffer.step with
    | .wait => True
    | .refuse failure => (buffer.extend piece).step = .refuse failure
    | .advance next => (buffer.extend piece).step = .advance (next.extend piece)
    | .deliver frame next => (buffer.extend piece).step = .deliver frame (next.extend piece) := by
  rcases buffer with ⟨bytes, _ | header, limit⟩
  · cases decoded : FrameHeader.decode? bytes with
    | none => simp [step, decoded]
    | some header =>
      have enough := size_le_of_decode? decoded
      have again := decode?_append decoded piece
      cases valid : header.validate limit with
      | error failure => simp [step, extend, decoded, again, valid]
      | ok _ =>
        by_cases complete : header.length = 0 <;>
          simp [step, extend, decoded, again, valid, complete, List.drop_append_of_le_length enough]
  · by_cases short : bytes.length < header.length.toNat
    · simp [step, short]
    · have enough : header.length.toNat ≤ bytes.length := Nat.le_of_not_lt short
      have still : ¬ bytes.length + piece.length < header.length.toNat := by omega
      simp [step, extend, short, still, List.take_append_of_le_length enough,
        List.drop_append_of_le_length enough]

/-! ## Handing out frames -/

variable {buffer next last : FrameBuffer}

/-- A waiting buffer hands out nothing and stays as it is. -/
theorem drain_of_wait (taken : buffer.step = .wait) : buffer.drain = (.ok [], buffer) := by
  unfold drain
  split <;> simp_all

/-- A refused header stays in front of the buffer. -/
theorem drain_of_refuse {failure : Failure} (taken : buffer.step = .refuse failure) :
    buffer.drain = (.error failure, buffer) := by
  unfold drain
  split <;> simp_all

/-- Taking a header hands out nothing. -/
theorem drain_of_advance (taken : buffer.step = .advance next) : buffer.drain = next.drain := by
  rw [drain]
  split <;> simp_all

/-- A complete frame is handed out in front of those behind it, unless one of these is refused. -/
theorem drain_of_deliver {frame : Frame} (taken : buffer.step = .deliver frame next) :
    buffer.drain = (next.drain.1.map (frame :: ·), next.drain.2) := by
  rw [drain]
  split <;> simp_all

/-- What is handed out behind a complete frame if nothing is refused. -/
theorem drain_ok_of_deliver {frame : Frame} {frames : List Frame}
    (taken : buffer.step = .deliver frame next) (drained : buffer.drain = (.ok frames, last)) :
    ∃ behind, next.drain = (.ok behind, last) ∧ frames = frame :: behind := by
  rw [drain_of_deliver taken] at drained
  rcases others : next.drain with ⟨failure | behind, rest⟩
  · simp [others, Except.map] at drained
  · obtain ⟨rfl, rfl⟩ : frame :: behind = frames ∧ rest = last := by
      simpa [others, Except.map] using drained
    exact ⟨behind, rfl, rfl⟩

/-- A refusal behind a complete frame is that of the whole. -/
theorem drain_error_of_deliver {frame : Frame} {failure : Failure}
    (taken : buffer.step = .deliver frame next) (drained : buffer.drain = (.error failure, last)) :
    next.drain = (.error failure, last) := by
  rw [drain_of_deliver taken] at drained
  rcases others : next.drain with ⟨refusal | behind, rest⟩
  · obtain ⟨rfl, rfl⟩ : refusal = failure ∧ rest = last := by
      simpa [others, Except.map] using drained
    rfl
  · simp [others, Except.map] at drained

/-- A buffer that waits completes no frame. -/
theorem completed_of_wait (taken : buffer.step = .wait) : buffer.completed = [] := by
  unfold completed
  split <;> simp_all

/-- A buffer that refuses its header completes no frame. -/
theorem completed_of_refuse {failure : Failure} (taken : buffer.step = .refuse failure) :
    buffer.completed = [] := by
  unfold completed
  split <;> simp_all

/-- Taking a header completes nothing yet. -/
theorem completed_of_advance (taken : buffer.step = .advance next) :
    buffer.completed = next.completed := by
  rw [completed]
  split <;> simp_all

/-- A frame that is delivered is completed in front of those that follow. -/
theorem completed_of_deliver {frame : Frame} (taken : buffer.step = .deliver frame next) :
    buffer.completed = frame :: next.completed := by
  rw [completed]
  split <;> simp_all

/-- What holds of waiting and of refusing buffers, and of a buffer whenever it holds of the buffer
after its step, holds of every buffer. Each step leaves less to do. -/
@[elab_as_elim]
theorem step_induction {motive : FrameBuffer → Prop}
    (wait : ∀ buffer : FrameBuffer, buffer.step = .wait → motive buffer)
    (refuse : ∀ (buffer : FrameBuffer) failure, buffer.step = .refuse failure → motive buffer)
    (advance : ∀ buffer next : FrameBuffer, buffer.step = .advance next → motive next → motive buffer)
    (deliver : ∀ (buffer next : FrameBuffer) frame, buffer.step = .deliver frame next →
      motive next → motive buffer)
    (buffer : FrameBuffer) : motive buffer := by
  induction measured : buffer.measure using Nat.strongRecOn generalizing buffer with
  | _ size inductionHypothesis =>
    subst measured
    have decreasing := measure_step buffer
    cases taken : buffer.step with
    | wait => exact wait buffer taken
    | refuse failure => exact refuse buffer failure taken
    | advance next =>
      rw [taken] at decreasing
      exact advance buffer next taken (inductionHypothesis _ decreasing next rfl)
    | deliver frame next =>
      rw [taken] at decreasing
      exact deliver buffer next frame taken (inductionHypothesis _ decreasing next rfl)

/-- A buffer that has handed out what it can waits. -/
theorem step_of_drain {frames : List Frame} (drained : buffer.drain = (.ok frames, last)) :
    last.step = .wait := by
  induction buffer using step_induction generalizing frames with
  | wait buffer taken =>
    rw [drain_of_wait taken] at drained
    cases drained
    exact taken
  | refuse buffer failure taken =>
    rw [drain_of_refuse taken] at drained
    cases drained
  | advance buffer next taken inductionHypothesis =>
    rw [drain_of_advance taken] at drained
    exact inductionHypothesis drained
  | deliver buffer next frame taken inductionHypothesis =>
    obtain ⟨behind, others, -⟩ := drain_ok_of_deliver taken drained
    exact inductionHypothesis others

/-- Handing out frames first and pushing a piece then comes to the same as having the piece from the
start. By induction on the steps, which further bytes do not change. -/
theorem drain_extend {frames : List Frame} (drained : buffer.drain = (.ok frames, last))
    (piece : Bytes) :
    (buffer.extend piece).drain = ((last.push piece).1.map (frames ++ ·), (last.push piece).2) ∧
      (buffer.extend piece).completed = frames ++ (last.extend piece).completed := by
  induction buffer using step_induction generalizing frames with
  | wait buffer taken =>
    rw [drain_of_wait taken] at drained
    cases drained
    refine ⟨?_, rfl⟩
    rw [push_eq_drain]
    cases (last.extend piece).drain with
    | mk outcome rest => cases outcome <;> rfl
  | refuse buffer failure taken =>
    rw [drain_of_refuse taken] at drained
    cases drained
  | advance buffer next taken inductionHypothesis =>
    have extended := step_extend buffer piece
    rw [taken] at extended
    rw [drain_of_advance taken] at drained
    rw [drain_of_advance extended, completed_of_advance extended]
    exact inductionHypothesis drained
  | deliver buffer next frame taken inductionHypothesis =>
    have extended := step_extend buffer piece
    rw [taken] at extended
    obtain ⟨behind, others, rfl⟩ := drain_ok_of_deliver taken drained
    obtain ⟨handed, kept⟩ := inductionHypothesis others
    rw [drain_of_deliver extended, completed_of_deliver extended, handed, kept]
    refine ⟨?_, rfl⟩
    cases (last.push piece).1 <;> rfl

/-- A refusal stands whatever follows: the same header is refused with the same frames in front. -/
theorem drain_extend_error {failure : Failure} (drained : buffer.drain = (.error failure, last))
    (piece : Bytes) :
    (buffer.extend piece).drain = (.error failure, last.extend piece) ∧
      (buffer.extend piece).completed = buffer.completed := by
  induction buffer using step_induction with
  | wait buffer taken =>
    rw [drain_of_wait taken] at drained
    cases drained
  | refuse buffer failure taken =>
    have extended := step_extend buffer piece
    rw [taken] at extended
    rw [drain_of_refuse taken] at drained
    cases drained
    exact ⟨drain_of_refuse extended, by
      rw [completed_of_refuse extended, completed_of_refuse taken]⟩
  | advance buffer next taken inductionHypothesis =>
    have extended := step_extend buffer piece
    rw [taken] at extended
    rw [drain_of_advance taken] at drained
    rw [drain_of_advance extended, completed_of_advance extended, completed_of_advance taken]
    exact inductionHypothesis drained
  | deliver buffer next frame taken inductionHypothesis =>
    have extended := step_extend buffer piece
    rw [taken] at extended
    obtain ⟨handed, kept⟩ := inductionHypothesis (drain_error_of_deliver taken drained)
    rw [drain_of_deliver extended, completed_of_deliver extended, completed_of_deliver taken,
      handed, kept]
    exact ⟨rfl, rfl⟩

/-- A buffer that has refused a header stays in front of it. -/
theorem step_of_drain_error {failure : Failure} (drained : buffer.drain = (.error failure, last)) :
    last.step = .refuse failure := by
  induction buffer using step_induction with
  | wait buffer taken =>
    rw [drain_of_wait taken] at drained
    cases drained
  | refuse buffer refusal taken =>
    rw [drain_of_refuse taken] at drained
    cases drained
    exact taken
  | advance buffer next taken inductionHypothesis =>
    rw [drain_of_advance taken] at drained
    exact inductionHypothesis drained
  | deliver buffer next frame taken inductionHypothesis =>
    exact inductionHypothesis (drain_error_of_deliver taken drained)

/-- A push that is accepted hands out the first of the frames that the stream completes. -/
theorem completed_of_push {piece : Bytes} {frames : List Frame}
    (pushed : buffer.push piece = (.ok frames, next)) (more : Bytes) :
    (buffer.extend (piece ++ more)).completed = frames ++ (next.extend more).completed := by
  rw [push_eq_drain] at pushed
  rw [← extend_extend]
  exact (drain_extend pushed more).2

/-- Behind a push that is refused, the stream completes nothing any more. -/
theorem completed_of_push_error {piece : Bytes} {failure : Failure}
    (pushed : buffer.push piece = (.error failure, next)) (more : Bytes) :
    (next.extend more).completed = [] := by
  rw [push_eq_drain] at pushed
  have stands := step_extend next more
  rw [step_of_drain_error pushed] at stands
  exact completed_of_refuse stands

/-! ## Pieces one by one -/

/-- However a stream is cut, it is refused like the stream in one piece, and the frames handed out
and lost are the frames that the stream completes. Frames are lost only by a refusal; otherwise all
are handed out, and the buffer is left as by the stream in one piece.

By induction on the pieces. A piece that is accepted leaves a waiting buffer, for which the further
pieces are those of a shorter stream; a refused one ends the run, and the refusal stands. -/
theorem pushAll_eq_drain {buffer : FrameBuffer} (waiting : buffer.step = .wait)
    (pieces : List Bytes) :
    (buffer.extend pieces.flatten).drain.1 = (buffer.pushAll pieces).outcome ∧
      (buffer.extend pieces.flatten).completed =
        (buffer.pushAll pieces).frames ++ (buffer.pushAll pieces).lost ∧
      ((buffer.pushAll pieces).refusal = none → (buffer.pushAll pieces).lost = [] ∧
        (buffer.extend pieces.flatten).drain.2 = (buffer.pushAll pieces).buffer) := by
  induction pieces generalizing buffer with
  | nil =>
    rw [List.flatten_nil, extend_nil, drain_of_wait waiting, completed_of_wait waiting]
    exact ⟨rfl, rfl, fun _ => ⟨rfl, rfl⟩⟩
  | cons piece pieces inductionHypothesis =>
    have drained := push_eq_drain buffer piece
    rw [List.flatten_cons, ← extend_extend]
    rcases pushed : buffer.push piece with ⟨failure | frames, next⟩
    · obtain ⟨stands, kept⟩ := drain_extend_error (drained.symm.trans pushed) pieces.flatten
      have stopped : buffer.pushAll (piece :: pieces) =
          ⟨[], some failure, (buffer.extend piece).completed, next⟩ := by
        simp only [pushAll, pushed]
      rw [stopped, stands, kept]
      exact ⟨rfl, rfl, nofun⟩
    · obtain ⟨handed, kept⟩ := drain_extend (drained.symm.trans pushed) pieces.flatten
      obtain ⟨outcome, completed, accepted⟩ :=
        inductionHypothesis (step_of_drain (drained.symm.trans pushed))
      rw [push_eq_drain, outcome] at handed
      have continued : buffer.pushAll (piece :: pieces) =
          { next.pushAll pieces with frames := frames ++ (next.pushAll pieces).frames } := by
        simp only [pushAll, pushed]
      rw [continued, handed, kept, completed, List.append_assoc]
      refine ⟨?_, rfl, accepted⟩
      simp only [Delivery.outcome]
      cases (next.pushAll pieces).refusal <;> rfl

/-- An empty buffer waits for a header. -/
theorem step_empty (limit : UInt32) : (empty limit).step = .wait := rfl

/-- Two ways of cutting a stream, well formed or not, are refused alike, and what each of them hands
out and loses is together what the stream completes in front of the refused header. So the frames
that are handed out depend on one number only: how many frames the refused piece completed. A stream
that is not refused loses nothing, and nothing is lost either where the refused header arrives apart
from the frames in front of it. -/
theorem delivered_eq_iff_lost_length_eq (limit : UInt32) (first second : List Bytes)
    (same : first.flatten = second.flatten) :
    ((empty limit).pushAll first).refusal = ((empty limit).pushAll second).refusal ∧
      ((empty limit).pushAll first).frames ++ ((empty limit).pushAll first).lost =
        ((empty limit).extend first.flatten).completed ∧
      ((empty limit).pushAll second).frames ++ ((empty limit).pushAll second).lost =
        ((empty limit).extend first.flatten).completed ∧
      (((empty limit).pushAll first).frames = ((empty limit).pushAll second).frames ↔
        ((empty limit).pushAll first).lost.length = ((empty limit).pushAll second).lost.length) ∧
      (((empty limit).pushAll first).refusal = none →
        ((empty limit).pushAll first).lost = [] ∧ ((empty limit).pushAll second).lost = []) := by
  obtain ⟨firstOutcome, firstCompleted, firstAccepted⟩ :=
    pushAll_eq_drain (step_empty limit) first
  obtain ⟨secondOutcome, secondCompleted, secondAccepted⟩ :=
    pushAll_eq_drain (step_empty limit) second
  rw [← same] at secondOutcome secondCompleted
  have outcome := firstOutcome.symm.trans secondOutcome
  have completed := firstCompleted.symm.trans secondCompleted
  have refusal : ((empty limit).pushAll first).refusal = ((empty limit).pushAll second).refusal := by
    unfold Delivery.outcome at outcome
    split at outcome <;> split at outcome <;> simp_all
  refine ⟨refusal, firstCompleted.symm, secondCompleted.symm, ?_, ?_⟩
  · constructor
    · intro delivered
      rw [delivered] at completed
      rw [List.append_cancel_left completed]
    · intro lost
      exact (List.append_inj' completed lost).1
  · intro accepted
    exact ⟨(firstAccepted accepted).1, (secondAccepted (refusal.symm.trans accepted)).1⟩

/-- The frame with which a client closes down. -/
def closing : Frame := ⟨⟨0xFFFF, 0, 1, 0⟩, []⟩

/-- A header whose kind of message is not assigned. -/
def unassigned : FrameHeader := ⟨77, 0, 2, 0⟩

/-- A closing frame is handed out when it arrives in front of an unassigned header, and lost when it
arrives together with it. The two ways of cutting the stream lose one frame and none. -/
theorem delivered_eq_iff_lost_length_eq_closing :
    let apart := (empty FrameHeader.standardLimit).pushAll [closing.encode, unassigned.encode]
    let together := (empty FrameHeader.standardLimit).pushAll [closing.encode ++ unassigned.encode]
    apart.frames ++ apart.lost = together.frames ++ together.lost ∧
      (apart.frames = together.frames ↔ apart.lost.length = together.lost.length) := by
  have same : [closing.encode, unassigned.encode].flatten =
      [closing.encode ++ unassigned.encode].flatten := by simp
  obtain ⟨-, apart, together, delivered, -⟩ :=
    delivered_eq_iff_lost_length_eq FrameHeader.standardLimit _ _ same
  exact ⟨apart.trans together.symm, delivered⟩

/-- It does matter how a stream is cut: frames in front of a refused header are lost when they arrive
in one piece with it. -/
theorem not_forall_delivered_eq :
    ¬ ∀ (limit : UInt32) (first second : List Bytes), first.flatten = second.flatten →
      ((empty limit).pushAll first).frames = ((empty limit).pushAll second).frames := by
  intro claim
  have same := claim FrameHeader.standardLimit [closing.encode ++ unassigned.encode]
    [closing.encode, unassigned.encode] (by simp)
  let fresh := empty FrameHeader.standardLimit
  have refused : (fresh.extend unassigned.encode).step =
      .refuse (.protocol .header (.unknownMessage 77)) := rfl
  have together : fresh.push (closing.encode ++ unassigned.encode) =
      (.error (.protocol .header (.unknownMessage 77)), fresh.extend unassigned.encode) := by
    have taken : (fresh.extend (closing.encode ++ unassigned.encode)).step =
        .deliver closing (fresh.extend unassigned.encode) := rfl
    rw [push_eq_drain, drain_of_deliver taken, drain_of_refuse refused]
    rfl
  have apart : fresh.push closing.encode = (.ok [closing], fresh) := by
    have taken : (fresh.extend closing.encode).step = .deliver closing fresh := rfl
    rw [push_eq_drain, drain_of_deliver taken, drain_of_wait rfl]
    rfl
  simp [pushAll, fresh, together, apart] at same

end FrameBuffer

end SignalAccess

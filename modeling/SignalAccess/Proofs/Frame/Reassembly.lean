import SignalAccess.Proofs.Frame.Stream

/-!
# Frames come out as they went in

A frame is admitted by a buffer if its header is valid there and announces the payload that it has.
The bytes of admitted frames are never refused, and the frames come out of them one by one, however
the stream is cut. Where the stream stops inside a frame, the buffer holds a part of its header, or
has taken the header and awaits the payload; only between frames it is idle.
-/

namespace SignalAccess

/-- A header is read from its own bytes, whatever stands behind them. -/
theorem FrameHeader.decode?_encode (header : FrameHeader) (rest : Bytes) :
    decode? (header.encode ++ rest) = some header := by
  obtain ⟨kindCode, flags, sequence, length⟩ := header
  obtain ⟨k, l, kindBytes⟩ : ∃ k l, Word.uint16 kindCode = [k, l] := ⟨_, _, rfl⟩
  obtain ⟨s, t, u, v, sequenceBytes⟩ : ∃ s t u v, Word.uint32 sequence = [s, t, u, v] :=
    ⟨_, _, _, _, rfl⟩
  obtain ⟨a, b, c, d, lengthBytes⟩ : ∃ a b c d, Word.uint32 length = [a, b, c, d] :=
    ⟨_, _, _, _, rfl⟩
  have kind : Word.toUInt16 [k, l] = kindCode := by rw [← kindBytes, Word.toUInt16_uint16]
  have number : Word.toUInt32 [s, t, u, v] = sequence := by
    rw [← sequenceBytes, Word.toUInt32_uint32]
  have size : Word.toUInt32 [a, b, c, d] = length := by rw [← lengthBytes, Word.toUInt32_uint32]
  simp [encode, decode?, kindBytes, sequenceBytes, lengthBytes, kind, number, size]

/-- A header is valid if nothing is wrong with it. -/
theorem FrameHeader.validate_eq_ok_iff {limit : UInt32} {header : FrameHeader} :
    header.validate limit = .ok () ↔ header.fault? limit = none := by
  unfold validate
  split <;> simp_all

/-- A frame whose header is valid where payloads may have `limit` bytes, and whose payload has the
length that the header announces. -/
structure Frame.Admitted (limit : UInt32) (frame : Frame) : Prop where
  valid : frame.header.validate limit = .ok ()
  framed : frame.payload.length = frame.header.length.toNat

namespace FrameBuffer

/-- The buffer that holds some bytes in front of a header. -/
def holding (limit : UInt32) (bytes : Bytes) : FrameBuffer := ⟨bytes, none, limit⟩

/-- Without bytes nothing is handed out. -/
theorem drain_holding_nil (limit : UInt32) : (holding limit []).drain = (.ok [], empty limit) :=
  drain_of_wait rfl

variable {limit : UInt32}

/-- The bytes of an admitted frame are handed out as the frame. A header without a payload is a frame
at once; any other is taken first, and the payload behind it then. -/
theorem drain_encode_append {frame : Frame} (admitted : frame.Admitted limit) (rest : Bytes) :
    (holding limit (frame.encode ++ rest)).drain =
      ((holding limit rest).drain.1.map (frame :: ·), (holding limit rest).drain.2) := by
  obtain ⟨header, payload⟩ := frame
  obtain ⟨valid, framed⟩ := admitted
  have decoded := header.decode?_encode (payload ++ rest)
  have behind : (header.encode ++ (payload ++ rest)).drop FrameHeader.size = payload ++ rest :=
    List.drop_left' header.length_encode
  by_cases short : header.length = 0
  · have nothing : payload = [] := List.length_eq_zero_iff.mp (by rw [framed, short]; rfl)
    subst nothing
    apply drain_of_deliver
    simp_all [step, holding, Frame.encode]
  · have taken : (holding limit (Frame.encode ⟨header, payload⟩ ++ rest)).step =
        .advance ⟨payload ++ rest, some header, limit⟩ := by
      simp_all [step, holding, Frame.encode]
    rw [drain_of_advance taken]
    apply drain_of_deliver
    simp [step, holding, ← framed]

/-- A part of an admitted frame that is not the whole of it is awaited: nothing is handed out, and the
buffer is idle only if nothing of the frame has arrived. -/
theorem drain_part {frame : Frame} (admitted : frame.Admitted limit) {front back : Bytes}
    (split : frame.encode = front ++ back) (missing : back ≠ []) :
    ∃ buffer, (holding limit front).drain = (.ok [], buffer) ∧
      (buffer.isIdle = true ↔ front = []) := by
  obtain ⟨header, payload⟩ := frame
  obtain ⟨valid, framed⟩ := admitted
  dsimp only [Frame.encode] at split valid framed
  by_cases complete : FrameHeader.size ≤ front.length
  · obtain ⟨part, rfl, rfl⟩ : ∃ part, front = header.encode ++ part ∧ payload = part ++ back := by
      rcases List.append_eq_append_iff.mp split with ⟨part, inFront, inBack⟩ | ⟨part, inFront, inBack⟩
      · exact ⟨part, inFront, inBack⟩
      · have lengths := congrArg List.length inFront
        rw [List.length_append, FrameHeader.length_encode] at lengths
        have nothing : part = [] := List.length_eq_zero_iff.mp (by omega)
        subst nothing
        exact ⟨[], by simpa using inFront.symm, by simpa using inBack.symm⟩
    have short : part.length < header.length.toNat := by
      have : 0 < back.length := List.length_pos_iff.mpr missing
      rw [← framed, List.length_append]
      omega
    have awaits : header.length ≠ 0 := by
      rintro nothing
      simp [nothing] at short
    have taken : (holding limit (header.encode ++ part)).step =
        .advance ⟨part, some header, limit⟩ := by
      simp [step, holding, header.decode?_encode part, valid, awaits,
        List.drop_left' header.length_encode]
    have waiting : (⟨part, some header, limit⟩ : FrameBuffer).step = .wait := by
      simp [step, short]
    refine ⟨⟨part, some header, limit⟩, by rw [drain_of_advance taken, drain_of_wait waiting], ?_⟩
    have begun : header.encode ++ part ≠ [] := by
      intro none
      have lengths := congrArg List.length none
      simp [FrameHeader.size] at lengths
    simp only [isIdle, Option.isNone_some, Bool.false_and, Bool.false_eq_true, begun]
  · have waiting : (holding limit front).step = .wait := by
      cases decoded : FrameHeader.decode? front with
      | none => simp [step, holding, decoded]
      | some header => exact absurd (size_le_of_decode? decoded) complete
    exact ⟨holding limit front, drain_of_wait waiting, by simp [isIdle, holding]⟩

/-- The bytes of admitted frames are handed out as the frames. -/
theorem drain_encode_all {frames : List Frame} (admitted : ∀ frame ∈ frames, frame.Admitted limit)
    (rest : Bytes) :
    (holding limit (frames.flatMap Frame.encode ++ rest)).drain =
      ((holding limit rest).drain.1.map (frames ++ ·), (holding limit rest).drain.2) := by
  induction frames with
  | nil =>
    rw [List.flatMap_nil, List.nil_append]
    rcases (holding limit rest).drain with ⟨failure | frames, last⟩ <;> rfl
  | cons frame frames inductionHypothesis =>
    have others := inductionHypothesis fun other member =>
      admitted other (List.mem_cons_of_mem frame member)
    have first := drain_encode_append (admitted frame List.mem_cons_self)
      (frames.flatMap Frame.encode ++ rest)
    rw [List.flatMap_cons, List.append_assoc, first, others]
    cases (holding limit rest).drain.1 <;> rfl

/-- The bytes of admitted frames and nothing else are handed out whole. -/
theorem drain_encode_whole {frames : List Frame} (admitted : ∀ frame ∈ frames, frame.Admitted limit) :
    (holding limit (frames.flatMap Frame.encode)).drain = (.ok frames, empty limit) := by
  have handed := drain_encode_all admitted []
  rwa [List.append_nil, drain_holding_nil, Except.map, List.append_nil] at handed

/-- A buffer that holds a part of a frame goes on with a piece as if it had both from the start. -/
theorem push_of_drain {part : Bytes} {buffer : FrameBuffer}
    (held : (holding limit part).drain = (.ok [], buffer)) (piece : Bytes) :
    buffer.push piece = (holding limit (part ++ piece)).drain := by
  have whole : (holding limit part).extend piece = holding limit (part ++ piece) := rfl
  rw [← whole, (drain_extend held piece).1]
  rcases buffer.push piece with ⟨failure | frames, last⟩ <;> rfl

/-- A header is valid where the front of its bytes and of what stands behind them hands out a frame:
a refused header hands out nothing, and so does a part of a header. -/
theorem validate_of_drain {header : FrameHeader} {payload front : Bytes} {frame : Frame}
    {frames : List Frame} {buffer : FrameBuffer} (begun : front <+: header.encode ++ payload)
    (drained : (holding limit front).drain = (.ok (frame :: frames), buffer)) :
    header.validate limit = .ok () := by
  cases decoded : FrameHeader.decode? front with
  | none =>
    have waiting : (holding limit front).step = .wait := by simp [step, holding, decoded]
    rw [drain_of_wait waiting] at drained
    cases drained
  | some other =>
    obtain ⟨back, whole⟩ := begun
    have again := decode?_append decoded back
    rw [whole, header.decode?_encode payload] at again
    obtain rfl : header = other := Option.some.inj again
    cases valid : header.validate limit with
    | ok _ => rfl
    | error failure =>
      have refused : (holding limit front).step = .refuse failure := by
        simp [step, holding, decoded, valid]
      rw [drain_of_refuse refused] at drained
      cases drained

/-- The front of a stream of frames is a number of frames, and behind them a proper part of the next
frame if there is one. -/
theorem exists_frames_of_prefix {frames : List Frame} {front : Bytes}
    (begun : front <+: frames.flatMap Frame.encode) :
    ∃ done more part, frames = done ++ more ∧ front = done.flatMap Frame.encode ++ part ∧
      (part = [] ∨ ∃ frame ∈ more, ∃ back, frame.encode = part ++ back ∧ back ≠ []) := by
  induction frames generalizing front with
  | nil =>
    have nothing : front = [] := by simpa using begun
    exact ⟨[], [], [], rfl, by simpa using nothing, .inl rfl⟩
  | cons frame frames inductionHypothesis =>
    obtain ⟨behind, split⟩ := begun
    rw [List.flatMap_cons] at split
    rcases List.append_eq_append_iff.mp split with ⟨back, inFrame, -⟩ | ⟨rest, inFront, inBack⟩
    · by_cases whole : back = []
      · subst whole
        exact ⟨[frame], frames, [], rfl, by simpa using inFrame.symm, .inl rfl⟩
      · exact ⟨[], frame :: frames, front, rfl, rfl,
          .inr ⟨frame, List.mem_cons_self, back, inFrame, whole⟩⟩
    · obtain ⟨done, more, part, rfl, rfl, stopped⟩ := inductionHypothesis ⟨behind, inBack.symm⟩
      exact ⟨frame :: done, more, part, rfl, by simp [inFront], stopped⟩

/-- A part of a stream of admitted frames hands out the frames that are complete, and leaves a buffer
that holds what has arrived of the next one. It is idle exactly when that is nothing. -/
theorem drain_front {frames : List Frame} (admitted : ∀ frame ∈ frames, frame.Admitted limit)
    {front : Bytes} (begun : front <+: frames.flatMap Frame.encode) :
    ∃ done more part buffer, frames = done ++ more ∧ front = done.flatMap Frame.encode ++ part ∧
      (holding limit front).drain = (.ok done, buffer) ∧
      (holding limit part).drain = (.ok [], buffer) ∧ (buffer.isIdle = true ↔ part = []) := by
  obtain ⟨done, more, part, rfl, rfl, stopped⟩ := exists_frames_of_prefix begun
  have handed := drain_encode_all (fun frame member => admitted frame (List.mem_append_left _ member))
    part
  obtain ⟨buffer, awaited, idle⟩ : ∃ buffer, (holding limit part).drain = (.ok [], buffer) ∧
      (buffer.isIdle = true ↔ part = []) := by
    rcases stopped with rfl | ⟨frame, member, back, split, missing⟩
    · exact ⟨empty limit, drain_holding_nil limit, by simp [isIdle, empty]⟩
    · exact drain_part (admitted frame (List.mem_append_right _ member)) split missing
  refine ⟨done, more, part, buffer, rfl, rfl, ?_, awaited, idle⟩
  rw [handed, awaited]
  simp [Except.map]

/-- Pieces of a stream of admitted frames, up to any point of it, are never refused. The frames that
are complete come out, and the buffer is idle exactly when no further frame has begun. -/
theorem pushAll_front {frames : List Frame} (admitted : ∀ frame ∈ frames, frame.Admitted limit)
    {pieces : List Bytes} (begun : pieces.flatten <+: frames.flatMap Frame.encode) :
    ((empty limit).pushAll pieces).refusal = none ∧
      ((empty limit).pushAll pieces).frames <+: frames ∧
      (((empty limit).pushAll pieces).buffer.isIdle = true ↔
        pieces.flatten = ((empty limit).pushAll pieces).frames.flatMap Frame.encode) := by
  obtain ⟨done, more, part, buffer, rfl, ended, drained, -, idle⟩ := drain_front admitted begun
  obtain ⟨outcome, -, accepted⟩ := pushAll_eq_drain (step_empty limit) pieces
  have whole : (empty limit).extend pieces.flatten = holding limit pieces.flatten := rfl
  rw [whole, drained] at outcome accepted
  unfold Delivery.outcome at outcome
  split at outcome
  · next refusal =>
    obtain ⟨-, left⟩ := accepted refusal
    cases outcome
    rw [← left]
    refine ⟨refusal, List.prefix_append _ more, idle.trans ?_⟩
    rw [ended, List.append_right_eq_self]
  · cases outcome

/-- The end of a stream is accepted in front of a header only. -/
theorem ensureIdle_eq_ok_iff {buffer : FrameBuffer} :
    buffer.ensureIdle = .ok () ↔ buffer.isIdle = true := by
  unfold ensureIdle
  split <;> simp_all

/-- Frames come out as they went in. However the bytes of admitted frames are cut, pieces without
bytes and single bytes included, no piece is refused and the frames handed out are the frames
themselves, in their order. And at each point of the stream its end is accepted exactly when the
point lies between two frames. -/
theorem frames_reassemble (limit : UInt32) (frames : List Frame)
    (admitted : ∀ frame ∈ frames, frame.Admitted limit) :
    (∀ pieces : List Bytes, pieces.flatten = frames.flatMap Frame.encode →
      ((empty limit).pushAll pieces).refusal = none ∧
        ((empty limit).pushAll pieces).frames = frames) ∧
    (∀ pieces : List Bytes, pieces.flatten <+: frames.flatMap Frame.encode →
      ((empty limit).pushAll pieces).refusal = none ∧
        (((empty limit).pushAll pieces).buffer.ensureIdle = .ok () ↔
          ∃ done, done <+: frames ∧ pieces.flatten = done.flatMap Frame.encode)) := by
  have handed (pieces : List Bytes) (done : List Frame) (doneFirst : done <+: frames)
      (whole : pieces.flatten = done.flatMap Frame.encode) :
      (holding limit pieces.flatten).drain = (.ok done, empty limit) := by
    rw [whole]
    exact drain_encode_whole fun frame member => admitted frame (doneFirst.subset member)
  constructor
  · intro pieces whole
    obtain ⟨accepted, -, -⟩ := pushAll_front admitted (whole.symm ▸ List.prefix_rfl : pieces.flatten <+: _)
    have outcome := (pushAll_eq_drain (step_empty limit) pieces).1
    have drained := handed pieces frames List.prefix_rfl whole
    rw [Delivery.outcome, accepted] at outcome
    refine ⟨accepted, ?_⟩
    have same : Except.ok frames = Except.ok ((empty limit).pushAll pieces).frames :=
      (congrArg Prod.fst drained).symm.trans outcome
    exact (Except.ok.inj same).symm
  · intro pieces begun
    obtain ⟨accepted, doneFirst, idle⟩ := pushAll_front admitted begun
    refine ⟨accepted, ?_⟩
    rw [ensureIdle_eq_ok_iff]
    constructor
    · exact fun ended => ⟨_, doneFirst, idle.mp ended⟩
    · rintro ⟨done, doneFirst, whole⟩
      have left := (pushAll_eq_drain (step_empty limit) pieces).2.2 accepted
      have drained := handed pieces done doneFirst whole
      have idleBuffer : ((empty limit).pushAll pieces).buffer = empty limit :=
        left.2.symm.trans (congrArg Prod.snd drained)
      rw [idleBuffer]
      rfl

/-- Two frames, the second with a payload, come out of pieces that cut both headers and the payload,
and the stream may not end inside the payload. -/
theorem frames_reassemble_closing :
    let payload : Frame := ⟨⟨1, 1, 7, 3⟩, [10, 20, 30]⟩
    let pieces := [closing.encode.take 4, [], closing.encode.drop 4 ++ payload.encode.take 12,
      payload.encode.drop 12]
    ((empty FrameHeader.standardLimit).pushAll pieces).frames = [closing, payload] ∧
      ((empty FrameHeader.standardLimit).pushAll (pieces.take 3)).buffer.ensureIdle ≠ .ok () := by
  intro payload pieces
  have admitted : ∀ frame ∈ [closing, payload], frame.Admitted FrameHeader.standardLimit := by
    intro frame member
    rcases List.mem_cons.mp member with rfl | last
    · exact ⟨rfl, rfl⟩
    · obtain rfl := List.mem_singleton.mp last
      exact ⟨FrameHeader.validate_eq_ok_iff.mpr (by decide), rfl⟩
  obtain ⟨handedOut, ended⟩ :=
    frames_reassemble FrameHeader.standardLimit [closing, payload] admitted
  refine ⟨(handedOut pieces rfl).2, ?_⟩
  rw [ne_eq, (ended (pieces.take 3) ⟨payload.encode.drop 12, rfl⟩).2]
  rintro ⟨done, ⟨more, split⟩, whole⟩
  have lengths := congrArg List.length whole
  rcases done with _ | ⟨first, _ | ⟨second, others⟩⟩
  · cases lengths
  · obtain ⟨rfl, -⟩ := List.cons.inj split
    cases lengths
  · obtain ⟨rfl, others⟩ := List.cons.inj split
    obtain ⟨rfl, -⟩ := List.cons.inj others
    simp [pieces, payload, closing, Frame.encode, FrameHeader.size] at lengths
    omega

end FrameBuffer

end SignalAccess

import SignalAccess.Proofs.Frame.Boundaries

/-!
# What a buffer keeps back

A buffer hands out each frame as soon as it is complete. So a push that is accepted leaves a part of
one frame only: less than a header, or less than the payload of a header that was taken. A header is
taken if it is valid, and then its payload is within the limit, which bounds what a peer can make a
buffer hold.

A push that is refused leaves the refused header in front. Whatever is pushed behind it, that header is
judged first and in the same way, so nothing is handed out any more until the buffer is cleared.
-/

namespace SignalAccess

/-- The payload that a valid header announces is within the limit. -/
theorem FrameHeader.length_le_of_validate {limit : UInt32} {header : FrameHeader}
    (valid : header.validate limit = .ok ()) : header.length ≤ limit := by
  have faultless := validate_eq_ok_iff.mp valid
  unfold fault? at faultless
  split at faultless
  · cases faultless
  · split at faultless
    · cases faultless
    · next within => exact UInt32.not_lt.mp within

/-- A header is refused for what is wrong with it. -/
theorem FrameHeader.exists_fault_of_validate {limit : UInt32} {header : FrameHeader}
    {failure : Failure} (refused : header.validate limit = .error failure) :
    ∃ fault, header.fault? limit = some fault ∧ failure = .protocol .header fault := by
  unfold validate at refused
  split at refused
  · next fault found =>
    cases refused
    exact ⟨fault, found, rfl⟩
  · cases refused

namespace FrameBuffer

/-- What is done with a buffer. -/
inductive Action where
  | push (piece : Bytes)
  | clear

/-- The buffer that an action leaves, whether it succeeds or not. -/
def act (buffer : FrameBuffer) : Action → FrameBuffer
  | .push piece => (buffer.push piece).2
  | .clear => buffer.clear

/-- The buffer that actions leave one after the other. -/
def after (buffer : FrameBuffer) (actions : List Action) : FrameBuffer := actions.foldl act buffer

/-- The buffer that pushes leave one after the other, whether they are refused or not. -/
def afterPushes (buffer : FrameBuffer) (pieces : List Bytes) : FrameBuffer :=
  buffer.after (pieces.map .push)

/-- No complete frame is kept back: in front of a header there is less than one, and behind a header
less than the payload that it announces, which is within the limit. -/
structure KeepsPart (limit : UInt32) (buffer : FrameBuffer) : Prop where
  header : buffer.awaited = none → buffer.bytes.length < FrameHeader.size
  payload : ∀ header, buffer.awaited = some header →
    buffer.bytes.length < header.length.toNat ∧ header.length ≤ limit
  incomplete : ∀ (frame : Frame) (rest : Bytes), frame.Admitted limit →
    buffer.held ≠ frame.encode ++ rest

/-- A header stands in front that is refused. Every push is refused for what is wrong with that header,
whatever is pushed, and only clearing the buffer makes an empty one of it. -/
structure Stops (limit : UInt32) (failure : Failure) (buffer : FrameBuffer) : Prop where
  front : ∃ (header : FrameHeader) (rest : Bytes) (fault : ProtocolFault),
    buffer.held = header.encode ++ rest ∧ header.fault? limit = some fault ∧
      failure = .protocol .header fault
  refuses : ∀ (pieces : List Bytes) (piece : Bytes),
    ((buffer.afterPushes pieces).push piece).1 = .error failure
  cleared : ∀ pieces : List Bytes, (buffer.afterPushes pieces).clear = empty limit

variable {limit : UInt32} {buffer next : FrameBuffer} {failure : Failure}

/-! ## Actions -/

/-- An action keeps the limit of a buffer, and takes valid headers only. -/
theorem Sound.act (sound : buffer.Sound limit) (action : Action) : (buffer.act action).Sound limit := by
  cases action with
  | push piece => exact (sound.extend piece).drain.1.toSound
  | clear => exact sound_of_awaited_none sound.limited rfl

/-- Any actions keep the limit of a buffer, and take valid headers only. -/
theorem Sound.after (sound : buffer.Sound limit) (actions : List Action) :
    (buffer.after actions).Sound limit := by
  induction actions generalizing buffer with
  | nil => exact sound
  | cons action actions inductionHypothesis => exact inductionHypothesis (sound.act action)

/-! ## Pushes that are accepted -/

/-- A sound buffer that waits holds a part of one frame. -/
theorem Sound.keepsPart (sound : buffer.Sound limit) (waiting : buffer.step = .wait) :
    buffer.KeepsPart limit where
  header := by
    intro front
    apply FrameHeader.length_lt_of_decode?
    cases decoded : FrameHeader.decode? buffer.bytes with
    | none => rfl
    | some header =>
      unfold FrameBuffer.step at waiting
      simp only [front, decoded] at waiting
      split at waiting
      · cases waiting
      · split at waiting <;> cases waiting
  payload := by
    intro header taken
    refine ⟨?_, FrameHeader.length_le_of_validate (sound.valid header taken)⟩
    unfold FrameBuffer.step at waiting
    simp only [taken] at waiting
    split at waiting
    · next short => exact short
    · cases waiting
  incomplete := by
    intro frame rest admitted whole
    have given := sound.step
    rw [waiting] at given
    rcases given with nothing | inside
    · rw [nothing, Frame.encode, List.append_assoc] at whole
      exact frame.header.encode_append_ne_nil _ whole.symm
    · exact inside.ne_encode_append admitted rest whole

/-! ## Pushes that are refused -/

/-- A buffer refuses a header that stands in front of all it holds, for what is wrong with it. -/
theorem exists_front_of_refuse (refused : buffer.step = .refuse failure) :
    ∃ (header : FrameHeader) (rest : Bytes) (fault : ProtocolFault),
      buffer.held = header.encode ++ rest ∧ header.fault? buffer.limit = some fault ∧
        failure = .protocol .header fault := by
  obtain ⟨bytes, awaited, own⟩ := buffer
  cases awaited with
  | none =>
    cases decoded : FrameHeader.decode? bytes with
    | none => simp [step, decoded] at refused
    | some header =>
      have whole := FrameHeader.encode_append_drop decoded
      cases judged : header.validate own with
      | error other =>
        obtain rfl : other = failure := by simpa [step, decoded, judged] using refused
        obtain ⟨fault, found, rfl⟩ := FrameHeader.exists_fault_of_validate judged
        exact ⟨header, _, fault, whole.symm, found, rfl⟩
      | ok _ =>
        by_cases complete : header.length = 0 <;> simp [step, decoded, judged, complete] at refused
  | some header =>
    by_cases short : bytes.length < header.length.toNat <;> simp [step, short] at refused

/-- Whatever is pushed behind a header that is refused, the header is refused again. -/
theorem push_of_refuse (refused : buffer.step = .refuse failure) (piece : Bytes) :
    buffer.push piece = (.error failure, buffer.extend piece) := by
  have again := step_extend buffer piece
  rw [refused] at again
  rw [push_eq_drain, drain_of_refuse again]

/-- A header that is refused stays in front, however often something is pushed. -/
theorem step_afterPushes_of_refuse (refused : buffer.step = .refuse failure) (pieces : List Bytes) :
    (buffer.afterPushes pieces).step = .refuse failure := by
  induction pieces generalizing buffer with
  | nil => exact refused
  | cons piece pieces inductionHypothesis =>
    have pushed : buffer.afterPushes (piece :: pieces) = (buffer.extend piece).afterPushes pieces :=
      congrArg (afterPushes · pieces) (congrArg Prod.snd (push_of_refuse refused piece))
    have again := step_extend buffer piece
    rw [refused] at again
    rw [pushed]
    exact inductionHypothesis again

/-- A sound buffer that refuses a header stops there. -/
theorem Sound.stops (sound : buffer.Sound limit) (refused : buffer.step = .refuse failure) :
    buffer.Stops limit failure where
  front := by
    have found := exists_front_of_refuse refused
    rwa [sound.limited] at found
  refuses := by
    intro pieces piece
    rw [push_of_refuse (step_afterPushes_of_refuse refused pieces)]
  cleared := by
    intro pieces
    have kept : (buffer.afterPushes pieces).limit = limit := (sound.after (pieces.map .push)).limited
    rw [clear, kept]

/-- Whatever was pushed into a buffer before, and however often it was cleared: after a push that is
accepted it keeps back a part of one frame at most, within the limit, and after a push that is refused
it refuses every further one for the same reason until it is cleared. -/
theorem push_keepsPart_or_stops (limit : UInt32) (actions : List Action) (piece : Bytes) :
    match ((empty limit).after actions).push piece with
    | (.ok _, next) => next.KeepsPart limit
    | (.error failure, next) => next.Stops limit failure := by
  have sound := (atRest_empty limit).toSound.after actions
  have goesOn := sound.act (.push piece)
  split
  · next frames next pushed =>
    rw [act, pushed] at goesOn
    rw [push_eq_drain] at pushed
    exact goesOn.keepsPart (step_of_drain pushed)
  · next failure next pushed =>
    rw [act, pushed] at goesOn
    rw [push_eq_drain] at pushed
    exact goesOn.stops (step_of_drain_error pushed)

/-- An unassigned header is refused, a closing frame behind it is refused for the kind of that header,
and an empty buffer is left when this one is cleared. -/
theorem push_keepsPart_or_stops_unassigned :
    let pushed := (empty FrameHeader.standardLimit).push unassigned.encode
    pushed.1 = .error (.protocol .header (.unknownMessage 77)) ∧
      (pushed.2.push closing.encode).1 = .error (.protocol .header (.unknownMessage 77)) ∧
      pushed.2.clear = empty FrameHeader.standardLimit := by
  have refused : (empty FrameHeader.standardLimit).push unassigned.encode =
      (.error (.protocol .header (.unknownMessage 77)),
        (empty FrameHeader.standardLimit).extend unassigned.encode) := drain_of_refuse rfl
  have given := push_keepsPart_or_stops FrameHeader.standardLimit [] unassigned.encode
  have fresh : (empty FrameHeader.standardLimit).after [] = empty FrameHeader.standardLimit := rfl
  rw [fresh, refused] at given
  rw [refused]
  exact ⟨rfl, given.refuses [] closing.encode, given.cleared []⟩

end FrameBuffer

end SignalAccess

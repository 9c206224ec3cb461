import Mathlib.Algebra.Group.Nat.Defs
import Mathlib.Data.List.Induction
import SignalAccess.Proofs.Frame.Reassembly

/-!
# Where a stream can end

The bytes that a buffer holds are those of the frame that it is in the middle of: of a header that was
taken they are kept, too. Handing out frames takes them from the front of what is held, and what is
left when nothing more can be handed out says where the stream stands: between two frames, inside a
frame, or in front of a header that is refused.

The three exclude each other, whatever bytes follow, because a stream is divided into frames in one way
only.
-/

namespace SignalAccess

/-- Every run of bytes is the word of the number that it denotes. -/
theorem Word.bytes_number (word : Bytes) : bytes word.length (number word) = word := by
  induction word using List.reverseRecOn with
  | nil => rfl
  | append_singleton word low inductionHypothesis =>
    have above : (256 * number word + low.toNat) / 256 = number word := by
      have small := low.toNat_lt
      omega
    have last : UInt8.ofNat (256 * number word + low.toNat) = low := by
      apply UInt8.toNat_inj.mp
      rw [UInt8.toNat_ofNat']
      have small := low.toNat_lt
      omega
    rw [List.length_append, List.length_singleton, number_append, bytes, above, last,
      inductionHypothesis]

/-- The number of a word has no more digits than the word has bytes. -/
theorem Word.number_lt (word : Bytes) : number word < 256 ^ word.length := by
  induction word using List.reverseRecOn with
  | nil => decide
  | append_singleton word low inductionHypothesis =>
    have small := low.toNat_lt
    rw [List.length_append, List.length_singleton, number_append, Nat.pow_succ]
    omega

/-- A header that is read stands at the front of its bytes. -/
theorem FrameHeader.encode_append_drop {bytes : Bytes} {header : FrameHeader}
    (decoded : decode? bytes = some header) : header.encode ++ bytes.drop size = bytes := by
  have short (a b : UInt8) : Word.uint16 (Word.toUInt16 [a, b]) = [a, b] := by
    have fits : Word.number [a, b] < UInt16.size :=
      Nat.lt_of_lt_of_le (Word.number_lt [a, b]) (show 256 ^ 2 ≤ UInt16.size by decide)
    rw [Word.uint16, Word.toUInt16, UInt16.toNat_ofNat_of_lt' fits]
    exact Word.bytes_number [a, b]
  have long (a b c d : UInt8) : Word.uint32 (Word.toUInt32 [a, b, c, d]) = [a, b, c, d] := by
    have fits : Word.number [a, b, c, d] < UInt32.size :=
      Nat.lt_of_lt_of_le (Word.number_lt [a, b, c, d]) (show 256 ^ 4 ≤ UInt32.size by decide)
    rw [Word.uint32, Word.toUInt32, UInt32.toNat_ofNat_of_lt' fits]
    exact Word.bytes_number [a, b, c, d]
  unfold decode? at decoded
  split at decoded
  · cases decoded
    rw [encode, short, long, long]
    rfl
  · cases decoded

/-- A header is not empty, whatever follows it. -/
theorem FrameHeader.encode_append_ne_nil (header : FrameHeader) (bytes : Bytes) :
    header.encode ++ bytes ≠ [] := by
  intro nothing
  have length := congrArg List.length nothing
  simp [size] at length

/-- Bytes that start with no header are fewer than it takes. -/
theorem FrameHeader.length_lt_of_decode? {bytes : Bytes} (nothing : decode? bytes = none) :
    bytes.length < size := by
  by_contra enough
  have long := Nat.le_of_not_lt enough
  match bytes, long with
  | _ :: _ :: _ :: _ :: _ :: _ :: _ :: _ :: _ :: _ :: _ :: _, _ => cases nothing

/-- A header is not refused because a connection is closed. -/
theorem FrameHeader.validate_ne_connectionClosed (header : FrameHeader) (limit : UInt32) :
    header.validate limit ≠ .error .connectionClosed := by
  intro closed
  unfold validate at closed
  split at closed <;> cases closed

/-! ## Places in a stream -/

/-- The bytes end inside a frame: they are a part of a header, or a header that is valid and a part of
its payload. -/
inductive Inside (limit : UInt32) : Bytes → Prop where
  | header {bytes : Bytes} (begun : bytes ≠ []) (short : bytes.length < FrameHeader.size) :
      Inside limit bytes
  | payload {header : FrameHeader} {bytes : Bytes} (valid : header.validate limit = .ok ())
      (short : bytes.length < header.length.toNat) : Inside limit (header.encode ++ bytes)

/-- The bytes start with a header that is refused. -/
def StartsMalformed (limit : UInt32) (bytes : Bytes) : Prop :=
  ∃ (header : FrameHeader) (rest : Bytes) (failure : Failure),
    bytes = header.encode ++ rest ∧ header.validate limit = .error failure

/-- The bytes start with a frame with which a peer closes down. -/
def StartsClosing (limit : UInt32) (bytes : Bytes) : Prop :=
  ∃ (frame : Frame) (rest : Bytes),
    bytes = frame.encode ++ rest ∧ frame.Admitted limit ∧ frame.header.isClosedown = true

/-- Some frames stand in front of the rest of a stream. -/
def FramesUpTo (limit : UInt32) (bytes rest : Bytes) : Prop :=
  ∃ frames : List Frame, (∀ frame ∈ frames, frame.Admitted limit) ∧
    bytes = frames.flatMap Frame.encode ++ rest

/-- A header is refused somewhere in a stream. -/
def HoldsMalformed (limit : UInt32) (bytes : Bytes) : Prop :=
  ∃ rest, FramesUpTo limit bytes rest ∧ StartsMalformed limit rest

variable {limit : UInt32} {bytes rest : Bytes}

/-- From a place to itself there are no frames. -/
theorem FramesUpTo.refl (limit : UInt32) (bytes : Bytes) : FramesUpTo limit bytes bytes :=
  ⟨[], nofun, rfl⟩

/-- Frames up to a place and frames from there on are frames. -/
theorem FramesUpTo.trans {last : Bytes} (first : FramesUpTo limit bytes rest)
    (second : FramesUpTo limit rest last) : FramesUpTo limit bytes last := by
  obtain ⟨front, frontAdmitted, rfl⟩ := first
  obtain ⟨back, backAdmitted, rfl⟩ := second
  refine ⟨front ++ back, ?_, by simp⟩
  intro frame member
  rcases List.mem_append.mp member with inFront | inBack
  · exact frontAdmitted frame inFront
  · exact backAdmitted frame inBack

/-- An admitted frame leads up to what stands behind it. -/
theorem Frame.Admitted.framesUpTo {frame : Frame} (admitted : frame.Admitted limit) (rest : Bytes) :
    FramesUpTo limit (frame.encode ++ rest) rest :=
  ⟨[frame], by simpa using admitted, by simp⟩

/-- Further bytes behind the rest do not change the frames in front of it. -/
theorem FramesUpTo.append (upTo : FramesUpTo limit bytes rest) (more : Bytes) :
    FramesUpTo limit (bytes ++ more) (rest ++ more) := by
  obtain ⟨frames, admitted, rfl⟩ := upTo
  exact ⟨frames, admitted, List.append_assoc _ _ _⟩

/-- A header that is refused is refused whatever follows it. -/
theorem StartsMalformed.append (malformed : StartsMalformed limit bytes) (more : Bytes) :
    StartsMalformed limit (bytes ++ more) := by
  obtain ⟨header, rest, failure, rfl, refused⟩ := malformed
  exact ⟨header, rest ++ more, failure, List.append_assoc _ _ _, refused⟩

/-- A header that is refused behind some frames is refused in the stream. -/
theorem HoldsMalformed.behind (upTo : FramesUpTo limit bytes rest)
    (malformed : HoldsMalformed limit rest) : HoldsMalformed limit bytes := by
  obtain ⟨last, behind, starts⟩ := malformed
  exact ⟨last, upTo.trans behind, starts⟩

/-- Bytes start with one header only. -/
theorem FrameHeader.encode_append_inj {first second : FrameHeader} {behind others : Bytes}
    (same : first.encode ++ behind = second.encode ++ others) : first = second ∧ behind = others := by
  have read := congrArg decode? same
  rw [decode?_encode, decode?_encode] at read
  obtain rfl := Option.some.inj read
  exact ⟨rfl, List.append_cancel_left same⟩

/-- Bytes start with one frame only. -/
theorem Frame.Admitted.encode_append_inj {first second : Frame} {behind others : Bytes}
    (firstAdmitted : first.Admitted limit) (secondAdmitted : second.Admitted limit)
    (same : first.encode ++ behind = second.encode ++ others) : first = second ∧ behind = others := by
  obtain ⟨header, payload⟩ := first
  obtain ⟨otherHeader, otherPayload⟩ := second
  rw [Frame.encode, Frame.encode, List.append_assoc, List.append_assoc] at same
  obtain ⟨rfl, same⟩ := FrameHeader.encode_append_inj same
  have length : payload.length = otherPayload.length :=
    firstAdmitted.framed.trans secondAdmitted.framed.symm
  obtain ⟨rfl, rfl⟩ := List.append_inj same length
  exact ⟨rfl, rfl⟩

/-- Of two places in a stream that lie between frames, one lies some frames behind the other. -/
theorem FramesUpTo.total {other : Bytes} (first : FramesUpTo limit bytes rest)
    (second : FramesUpTo limit bytes other) :
    FramesUpTo limit rest other ∨ FramesUpTo limit other rest := by
  obtain ⟨frames, admitted, rfl⟩ := first
  obtain ⟨others, othersAdmitted, same⟩ := second
  induction frames generalizing others with
  | nil => exact .inl ⟨others, othersAdmitted, same⟩
  | cons frame frames inductionHypothesis =>
    cases others with
    | nil => exact .inr ⟨frame :: frames, admitted, same.symm⟩
    | cons another others =>
      rw [List.flatMap_cons, List.flatMap_cons, List.append_assoc, List.append_assoc] at same
      obtain ⟨frameAdmitted, rest⟩ := List.forall_mem_cons.mp admitted
      obtain ⟨anotherAdmitted, restOthers⟩ := List.forall_mem_cons.mp othersAdmitted
      obtain ⟨-, behind⟩ := frameAdmitted.encode_append_inj anotherAdmitted same
      exact inductionHypothesis rest others restOthers behind

/-- Bytes that end inside a frame hold none. -/
theorem Inside.ne_encode_append (inside : Inside limit bytes) {frame : Frame}
    (admitted : frame.Admitted limit) (rest : Bytes) : bytes ≠ frame.encode ++ rest := by
  rintro rfl
  rw [Frame.encode, List.append_assoc] at inside
  generalize whole : frame.header.encode ++ (frame.payload ++ rest) = bytes at inside
  cases inside with
  | header begun short =>
    rw [← whole, List.length_append, FrameHeader.length_encode] at short
    omega
  | payload valid short =>
    obtain ⟨rfl, rfl⟩ := FrameHeader.encode_append_inj whole
    rw [List.length_append, admitted.framed] at short
    omega

/-- Bytes that end inside a frame have no frames in front. -/
theorem Inside.eq_of_framesUpTo (inside : Inside limit bytes)
    (upTo : FramesUpTo limit bytes rest) : rest = bytes := by
  obtain ⟨frames, admitted, rfl⟩ := upTo
  cases frames with
  | nil => rfl
  | cons frame frames =>
    rw [List.flatMap_cons, List.append_assoc] at inside
    exact absurd rfl (inside.ne_encode_append (admitted frame List.mem_cons_self) _)

/-- Within a frame there is at least one byte of it. -/
theorem Inside.ne_nil (inside : Inside limit bytes) : bytes ≠ [] := by
  cases inside with
  | header begun => exact begun
  | payload => exact FrameHeader.encode_append_ne_nil _ _

/-- A stream that ends inside a frame does not end between two frames. -/
theorem Inside.not_framesUpTo_nil (inside : Inside limit rest) (upTo : FramesUpTo limit bytes rest) :
    ¬ FramesUpTo limit bytes [] := by
  intro whole
  rcases upTo.total whole with behind | behind
  · exact inside.ne_nil (inside.eq_of_framesUpTo behind).symm
  · obtain ⟨frames, -, split⟩ := behind
    exact inside.ne_nil (List.nil_eq_append_iff.mp split).2

namespace FrameBuffer

/-! ## What a buffer holds -/

/-- The bytes of the frame that a buffer is in the middle of: those of a header that was taken, and
those that it has not taken. -/
def held (buffer : FrameBuffer) : Bytes :=
  (buffer.awaited.map FrameHeader.encode).getD [] ++ buffer.bytes

/-- A buffer of some limit that awaits the payload of a valid header, if of any. -/
structure Sound (limit : UInt32) (buffer : FrameBuffer) : Prop where
  limited : buffer.limit = limit
  valid : ∀ header, buffer.awaited = some header → header.validate limit = .ok ()

/-- A sound buffer that can hand out nothing: it waits, or it refuses its next header. -/
structure AtRest (limit : UInt32) (buffer : FrameBuffer) : Prop extends Sound limit buffer where
  rests : buffer.step = .wait ∨ ∃ failure, buffer.step = .refuse failure

variable {buffer next last : FrameBuffer}

/-- What is pushed is held behind what was held before. -/
theorem held_extend (buffer : FrameBuffer) (piece : Bytes) :
    (buffer.extend piece).held = buffer.held ++ piece := by
  simp [held, extend]

/-- A buffer stays sound when bytes are put behind its own. -/
theorem Sound.extend (sound : buffer.Sound limit) (piece : Bytes) :
    (buffer.extend piece).Sound limit :=
  ⟨sound.limited, sound.valid⟩

/-- A buffer that awaits no payload is sound. -/
theorem sound_of_awaited_none (limited : buffer.limit = limit) (nothing : buffer.awaited = none) :
    buffer.Sound limit := by
  refine ⟨limited, ?_⟩
  intro header awaited
  rw [nothing] at awaited
  cases awaited

/-- An empty buffer is at rest. -/
theorem atRest_empty (limit : UInt32) : (empty limit).AtRest limit :=
  ⟨sound_of_awaited_none rfl rfl, .inl (step_empty limit)⟩

/-- What a step makes of the bytes that a sound buffer holds. Waiting, a buffer stands between two
frames or inside one; a header that is refused stands in front. A header that is taken is still held,
and a frame that is handed out is taken from the front. -/
theorem Sound.step (sound : buffer.Sound limit) :
    match buffer.step with
    | .wait => buffer.held = [] ∨ Inside limit buffer.held
    | .refuse failure => StartsMalformed limit buffer.held ∧ failure ≠ .connectionClosed
    | .advance next => next.Sound limit ∧ next.held = buffer.held
    | .deliver frame next => next.Sound limit ∧ frame.Admitted limit ∧
        buffer.held = frame.encode ++ next.held := by
  obtain ⟨bytes, awaited, own⟩ := buffer
  obtain ⟨rfl, valid⟩ := sound
  cases awaited with
  | none =>
    cases decoded : FrameHeader.decode? bytes with
    | none =>
      simp only [FrameBuffer.step, decoded]
      by_cases begun : bytes = []
      · exact .inl begun
      · exact .inr (.header begun (FrameHeader.length_lt_of_decode? decoded))
    | some header =>
      have whole := FrameHeader.encode_append_drop decoded
      cases judged : header.validate own with
      | error failure =>
        simp only [FrameBuffer.step, decoded, judged]
        refine ⟨⟨header, _, failure, whole.symm, judged⟩, ?_⟩
        rintro rfl
        exact header.validate_ne_connectionClosed own judged
      | ok _ =>
        by_cases complete : header.length = 0
        · simp only [FrameBuffer.step, decoded, judged, complete, ↓reduceIte]
          refine ⟨sound_of_awaited_none rfl rfl, ⟨judged, by rw [complete]; rfl⟩, ?_⟩
          simpa [held, Frame.encode] using whole.symm
        · simp only [FrameBuffer.step, decoded, judged, complete, ↓reduceIte]
          refine ⟨⟨rfl, ?_⟩, whole⟩
          rintro _ ⟨rfl⟩
          exact judged
  | some header =>
    have judged := valid header rfl
    by_cases short : bytes.length < header.length.toNat
    · simp only [FrameBuffer.step, short, ↓reduceIte]
      exact .inr (.payload judged short)
    · have enough := Nat.le_of_not_lt short
      simp only [FrameBuffer.step, short, ↓reduceIte]
      refine ⟨sound_of_awaited_none rfl rfl, ⟨judged, List.length_take_of_le enough⟩, ?_⟩
      simp [held, Frame.encode]

/-- What handing out frames makes of the bytes that a sound buffer holds. The frames are taken from
the front, and so are those that a refusal loses; the header that is refused stays. By induction on
the steps. -/
theorem Sound.drain (sound : buffer.Sound limit) :
    buffer.drain.2.AtRest limit ∧
    match buffer.drain.1 with
    | .ok frames => (∀ frame ∈ frames, frame.Admitted limit) ∧
        buffer.held = frames.flatMap Frame.encode ++ buffer.drain.2.held
    | .error failure => FramesUpTo limit buffer.held buffer.drain.2.held ∧
        StartsMalformed limit buffer.drain.2.held ∧ failure ≠ .connectionClosed := by
  induction buffer using step_induction with
  | wait buffer taken =>
    rw [drain_of_wait taken]
    exact ⟨⟨sound, .inl taken⟩, nofun, rfl⟩
  | refuse buffer failure taken =>
    have given := sound.step
    rw [taken] at given
    rw [drain_of_refuse taken]
    exact ⟨⟨sound, .inr ⟨failure, taken⟩⟩, .refl limit buffer.held, given⟩
  | advance buffer next taken inductionHypothesis =>
    have given := sound.step
    rw [taken] at given
    obtain ⟨goesOn, same⟩ := given
    rw [drain_of_advance taken, ← same]
    exact inductionHypothesis goesOn
  | deliver buffer next frame taken inductionHypothesis =>
    have given := sound.step
    rw [taken] at given
    obtain ⟨goesOn, admitted, split⟩ := given
    obtain ⟨rests, behind⟩ := inductionHypothesis goesOn
    rw [drain_of_deliver taken]
    refine ⟨rests, ?_⟩
    cases drained : next.drain.1 with
    | ok frames =>
      rw [drained] at behind
      refine ⟨List.forall_mem_cons.mpr ⟨admitted, behind.1⟩, ?_⟩
      rw [split, behind.2, List.flatMap_cons, List.append_assoc]
    | error failure =>
      rw [drained] at behind
      refine ⟨?_, behind.2⟩
      rw [split]
      exact (admitted.framesUpTo _).trans behind.1

/-- The end of a stream is accepted where nothing is held. -/
theorem isIdle_iff_held : buffer.isIdle = true ↔ buffer.held = [] := by
  obtain ⟨bytes, _ | header, own⟩ := buffer
  · simp [isIdle, held]
  · have some : (⟨bytes, .some header, own⟩ : FrameBuffer).held ≠ [] :=
      header.encode_append_ne_nil bytes
    simp [isIdle, some]

/-- Where a buffer stands that can hand out nothing. -/
theorem AtRest.cases (rests : buffer.AtRest limit) :
    buffer.held = [] ∨ Inside limit buffer.held ∨ StartsMalformed limit buffer.held := by
  have given := rests.toSound.step
  rcases rests.rests with waiting | ⟨failure, refused⟩
  · rw [waiting] at given
    exact given.imp_right .inl
  · rw [refused] at given
    exact .inr (.inr given.1)

end FrameBuffer

end SignalAccess

import SignalAccess.Frame.Header
/-!
# Frame buffers

A stream delivers its bytes in pieces that have nothing to do with frames. A buffer collects them,
and hands out each frame as soon as it is complete. A header is judged as soon as it is complete,
before its payload arrives. When it is refused the buffer stays in front of it, and the frames that
the same piece completed are lost.
-/
namespace SignalAccess

/-- The bytes of a stream that make up no frame yet. -/
structure FrameBuffer where
  bytes : Bytes
  /-- The header that was taken and whose payload is awaited. -/
  awaited : Option FrameHeader
  /-- The largest payload that is admitted. -/
  limit : UInt32
  deriving DecidableEq, Repr

namespace FrameBuffer

/-- A buffer without bytes. -/
def empty (limit : UInt32) : FrameBuffer := ⟨[], none, limit⟩

/-- What a buffer can do without further bytes. -/
inductive Step where
  /-- Nothing: more bytes are needed. -/
  | wait
  /-- The next header is refused. -/
  | refuse (failure : Failure)
  /-- A header is taken, and its payload is awaited. -/
  | advance (buffer : FrameBuffer)
  /-- A frame is complete. -/
  | deliver (frame : Frame) (buffer : FrameBuffer)

/-- What a buffer does next. A header whose payload is empty is a complete frame. -/
def step (buffer : FrameBuffer) : Step :=
  match buffer.awaited with
  | none =>
    match FrameHeader.decode? buffer.bytes with
    | none => .wait
    | some header =>
      match header.validate buffer.limit with
      | .error failure => .refuse failure
      | .ok () =>
        let rest := buffer.bytes.drop FrameHeader.size
        if header.length = 0 then .deliver ⟨header, []⟩ { buffer with bytes := rest }
        else .advance { buffer with bytes := rest, awaited := some header }
  | some header =>
    let length := header.length.toNat
    if buffer.bytes.length < length then .wait
    else
      .deliver ⟨header, buffer.bytes.take length⟩
        { buffer with bytes := buffer.bytes.drop length, awaited := none }

/-- How much a buffer has left to do. -/
def measure (buffer : FrameBuffer) : Nat := 2 * buffer.bytes.length + buffer.awaited.toList.length

/-- Bytes in front of which a header is read are as many as a header has, or more. -/
theorem size_le_of_decode? {bytes : Bytes} {header : FrameHeader}
    (decoded : FrameHeader.decode? bytes = some header) : FrameHeader.size ≤ bytes.length := by
  unfold FrameHeader.decode? at decoded
  split at decoded
  · simp [FrameHeader.size]
  · cases decoded

/-- Taking a header or a frame leaves less to do. -/
theorem measure_step (buffer : FrameBuffer) :
    match buffer.step with
    | .advance next => next.measure < buffer.measure
    | .deliver _ next => next.measure < buffer.measure
    | _ => True := by
  rcases buffer with ⟨bytes, _ | header, limit⟩
  · cases decoded : FrameHeader.decode? bytes with
    | none => simp [step, decoded]
    | some header =>
      have enough := size_le_of_decode? decoded
      cases valid : header.validate limit with
      | error failure => simp [step, decoded, valid]
      | ok _ =>
        by_cases complete : header.length = 0 <;>
          simp only [step, decoded, valid, complete, ↓reduceIte, measure, List.length_drop,
            Option.toList_none, Option.toList_some, List.length_nil, List.length_singleton] <;>
          simp only [FrameHeader.size] at * <;> omega
  · by_cases short : bytes.length < header.length.toNat
    · simp [step, short]
    · simp only [step, short, ↓reduceIte, measure, List.length_drop, Option.toList_none,
        Option.toList_some, List.length_nil, List.length_singleton]
      omega

/-- The frames that a buffer can hand out, and the buffer without them. -/
def drain (buffer : FrameBuffer) : Except Failure (List Frame) × FrameBuffer :=
  match taken : buffer.step with
  | .wait => (.ok [], buffer)
  | .refuse failure => (.error failure, buffer)
  | .advance next =>
    have : next.measure < buffer.measure := by simpa [taken] using measure_step buffer
    next.drain
  | .deliver frame next =>
    have : next.measure < buffer.measure := by simpa [taken] using measure_step buffer
    let (frames, last) := next.drain
    (frames.map (frame :: ·), last)
termination_by buffer.measure

/-- The frames that a further piece of the stream completes, and the buffer after it. -/
def push (buffer : FrameBuffer) (piece : Bytes) : Except Failure (List Frame) × FrameBuffer :=
  { buffer with bytes := buffer.bytes ++ piece }.drain

/-- The buffer without bytes, in front of a header. -/
def clear (buffer : FrameBuffer) : FrameBuffer := empty buffer.limit

/-- Whether the stream may end here: no frame has begun. -/
def isIdle (buffer : FrameBuffer) : Bool := buffer.awaited.isNone && buffer.bytes.isEmpty

/-- Refuses the end of the stream inside a frame. -/
def ensureIdle (buffer : FrameBuffer) : Except Failure Unit :=
  if buffer.isIdle then .ok ()
  else .error (.protocol .header (.endInsideFrame buffer.bytes.length))

end FrameBuffer

end SignalAccess

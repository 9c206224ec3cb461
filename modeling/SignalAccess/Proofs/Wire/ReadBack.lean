import SignalAccess.Proofs.Failure.Recording
import SignalAccess.Wire.Input
import SignalAccess.Wire.Output

/-!
# Reading back what was written

A decoder reads some bytes as a value if it takes exactly these bytes from the front of every input
and, given only a part of them, fails against the section that it was in. A piece is read back by a
decoder if the decoder reads its bytes, whatever the piece turns out to be; a piece that cannot be
written has no bytes, and nothing is asked of it.

Pieces that are joined are read back by decoders one behind the other, so the laws of a composite
follow its definition field by field. The bytes behind a piece stay arbitrary throughout.
-/

namespace SignalAccess

namespace Decoder

variable {α β : Type}

/-- The decoder takes exactly the given bytes and keeps its section. A shorter input that agrees
with them as far as it goes is refused in that section; its rest is of no concern. -/
structure Reads (decoder : Decoder α) (bytes : Bytes) (value : α) : Prop where
  complete : ∀ back part, decoder ⟨bytes ++ back, part⟩ = .ok value ⟨back, part⟩
  cut : ∀ front back part, bytes = front ++ back → back ≠ [] →
    ∃ fault rest, decoder ⟨front, part⟩ = .error (.protocol part fault) rest

/-- Nothing is read as any value. There is no shorter input to be refused. -/
theorem reads_pure (value : α) : Reads (pure value) [] value where
  complete _ _ := rfl
  cut front back part split missing := by
    have both : front = [] ∧ back = [] := List.nil_eq_append_iff.mp split
    exact absurd both.2 missing

/-- One decoder behind another reads the bytes of the first and then its own.

A cut lies either inside the first bytes, where the first decoder fails, or behind them, where the
first decoder succeeds and leaves a proper part of the second bytes. -/
theorem Reads.bind {decoder : Decoder α} {f : α → Decoder β} {first second : Bytes} {a : α}
    {b : β} (front : Reads decoder first a) (back : Reads (f a) second b) :
    Reads (decoder >>= f) (first ++ second) b where
  complete := by
    intro rest part
    have taken := front.complete (second ++ rest) part
    rw [List.append_assoc]
    simp only [Bind.bind, EStateM.bind, taken]
    exact back.complete rest part
  cut := by
    intro kept lost part split missing
    rcases List.append_eq_append_iff.mp split with ⟨more, rfl, rfl⟩ | ⟨more, rfl, rfl⟩
    · obtain ⟨fault, rest, failed⟩ := back.cut more lost part rfl missing
      refine ⟨fault, rest, ?_⟩
      have taken := front.complete more part
      simp only [Bind.bind, EStateM.bind, taken, failed]
    · by_cases whole : more = []
      · subst whole
        obtain ⟨fault, rest, failed⟩ := back.cut [] second part rfl missing
        refine ⟨fault, rest, ?_⟩
        have taken := front.complete [] part
        simp only [List.append_nil] at taken
        simp only [Bind.bind, EStateM.bind, taken, failed]
      · obtain ⟨fault, rest, failed⟩ := front.cut kept more part rfl whole
        exact ⟨fault, rest, by simp only [Bind.bind, EStateM.bind, failed]⟩

/-- A value is made of what a decoder reads. -/
theorem Reads.map {decoder : Decoder α} {bytes : Bytes} {a : α} (make : α → β)
    (read : Reads decoder bytes a) :
    Reads (do return make (← decoder)) bytes (make a) := by
  have whole := read.bind (f := fun a => pure (make a)) (reads_pure (make a))
  rwa [List.append_nil] at whole

/-- A number of bytes are taken as they are. -/
theorem reads_take (what : WirePart) (bytes : Bytes) :
    Reads (take what bytes.length) bytes bytes where
  complete back part := take_append what bytes back part
  cut := by
    rintro front back part rfl missing
    have short : front.length < (front ++ back).length := by
      have : 0 < back.length := List.length_pos_iff.mpr missing
      rw [List.length_append]
      omega
    exact ⟨_, _, if_pos short⟩

/-- The bytes of a signed integer are read as this integer. -/
theorem reads_int32 (i : Int32) : Reads int32 (Word.int32 i) i := by
  have taken := (reads_take .int32 (Word.int32 i)).map Word.toInt32
  rwa [Word.length_int32, Word.toInt32_int32] at taken

/-- The bytes of an unsigned integer are read as this integer. -/
theorem reads_uint32 (i : UInt32) : Reads uint32 (Word.uint32 i) i := by
  have taken := (reads_take .uint32 (Word.uint32 i)).map Word.toUInt32
  rwa [Word.length_uint32, Word.toUInt32_uint32] at taken

/-- The bytes of a floating point number are read as this number, bit for bit. -/
theorem reads_float64 (x : Binary64) : Reads float64 (Word.float64 x) x := by
  have taken := (reads_take .float64 (Word.float64 x)).map Word.toFloat64
  rwa [Word.length_float64, Word.toFloat64_float64] at taken

/-- The bytes of a truth value are read as this truth value. -/
theorem reads_truth (b : Bool) : Reads truth (Word.truth b) b := by
  have taken := (reads_int32 (if b then 1 else 0)).map (· != 0)
  cases b <;> exact taken

/-- Words that stand one behind the other are read in their order. -/
theorem reads_row (width : Nat) (words : List (BitVec (8 * width))) :
    Reads (do return row width words.length (← take .array (words.length * width)))
      (words.flatMap Word.bits) words := by
  have length : (words.flatMap Word.bits).length = words.length * width := by
    simp [List.length_flatMap, List.map_const']
  have taken := (reads_take .array (words.flatMap Word.bits)).map (row width words.length)
  rwa [length, row_flatMap_bits] at taken

/-- The decoder takes exactly the given bytes; what it takes may lie in several sections. -/
def Takes (decoder : Decoder α) (bytes : Bytes) (value : α) : Prop :=
  ∀ back part, ∃ last, decoder ⟨bytes ++ back, part⟩ = .ok value ⟨back, last⟩

/-- A decoder that reads a value from some bytes takes these bytes and no more. -/
theorem Reads.takes {decoder : Decoder α} {bytes : Bytes} {value : α}
    (read : Reads decoder bytes value) : Takes decoder bytes value :=
  fun back part => ⟨part, read.complete back part⟩

/-- One decoder behind another takes the bytes of the first and then its own. -/
theorem Takes.bind {decoder : Decoder α} {f : α → Decoder β} {first second : Bytes} {a : α} {b : β}
    (front : Takes decoder first a) (back : Takes (f a) second b) :
    Takes (decoder >>= f) (first ++ second) b := by
  intro rest part
  obtain ⟨middle, taken⟩ := front (second ++ rest) part
  obtain ⟨last, completed⟩ := back rest middle
  refine ⟨last, ?_⟩
  rw [List.append_assoc]
  simp only [Bind.bind, EStateM.bind, taken]
  exact completed

/-- A value is made of what a decoder takes. -/
theorem Takes.map {decoder : Decoder α} {bytes : Bytes} {a : α} (make : α → β)
    (taken : Takes decoder bytes a) :
    Takes (do return make (← decoder)) bytes (make a) := by
  have whole := taken.bind (f := fun a => pure (make a)) (reads_pure (make a)).takes
  rwa [List.append_nil] at whole

/-- Entering a section takes no bytes. -/
theorem Takes.enter {decoder : Decoder α} {bytes : Bytes} {value : α} (part : Section)
    (taken : Takes decoder bytes value) : Takes (do enter part; decoder) bytes value :=
  fun back _ => taken back part

/-- Bytes that a decoder takes are a whole value. -/
theorem Takes.whole {decoder : Decoder α} {bytes : Bytes} {value : α}
    (taken : Takes decoder bytes value) (leftOver : Nat → ProtocolFault) :
    decoder.whole leftOver bytes = .ok value := by
  obtain ⟨last, completed⟩ := taken [] .state
  rw [List.append_nil] at completed
  simp [Decoder.whole, Input.ofBytes, completed]

end Decoder

namespace Encoding

variable {α β γ : Type}

/-- A piece is read back by a decoder as a value. -/
def ReadBack (piece : Encoding) (decoder : Decoder α) (value : α) : Prop :=
  ∀ bytes, piece = .ok bytes → decoder.Reads bytes value

/-- The bytes of a piece that can be written. -/
def written (piece : Encoding) : Bytes := piece.toOption.getD []

/-- Written bytes are read back where they are read. -/
theorem readBack_ok {bytes : Bytes} {decoder : Decoder α} {value : α}
    (read : decoder.Reads bytes value) : ReadBack (.ok bytes) decoder value := by
  intro same written
  cases written
  exact read

/-- An absent piece is read back as any value. -/
theorem readBack_nil (value : α) : ReadBack (joined []) (pure value) value :=
  readBack_ok (Decoder.reads_pure value)

/-- Joined pieces are written one behind the other: the first piece, and then the others. -/
theorem joined_cons_eq_ok {piece : Encoding} {pieces : List Encoding} {bytes : Bytes}
    (written : joined (piece :: pieces) = .ok bytes) :
    ∃ front back, piece = .ok front ∧ joined pieces = .ok back ∧ front ++ back = bytes := by
  cases first : piece with
  | error failure => simp [joined, first, bind, Except.bind] at written
  | ok front =>
    cases others : joined pieces with
    | error failure => simp [joined, first, others, bind, Except.bind] at written
    | ok back =>
      have same : front ++ back = bytes := by
        simpa [joined, first, others, bind, Except.bind, pure, Except.pure] using written
      exact ⟨front, back, rfl, rfl, same⟩

/-- Pieces that are joined in front of others stand in front of them one by one. -/
theorem joined_joined_cons (pieces others : List Encoding) :
    joined (joined pieces :: others) = joined (pieces ++ others) := by
  induction pieces with
  | nil =>
    simp only [joined, bind, Except.bind, List.nil_append]
    cases joined others <;> rfl
  | cons piece pieces inductionHypothesis =>
    have behind : joined (piece :: (pieces ++ others)) =
        (do return (← piece) ++ (← joined (joined pieces :: others))) := by
      rw [inductionHypothesis]
      rfl
    rw [List.cons_append, behind]
    simp only [joined, bind, Except.bind]
    cases piece with
    | error failure => rfl
    | ok front =>
      cases joined pieces with
      | error failure => rfl
      | ok middle =>
        cases joined others with
        | error failure => rfl
        | ok back => simp [pure, Except.pure]

/-- If the whole can be written, each of the pieces can. -/
theorem written_of_joined {pieces : List Encoding} {bytes : Bytes}
    (written : joined pieces = .ok bytes) : ∀ piece ∈ pieces, ∃ part, piece = .ok part := by
  induction pieces generalizing bytes with
  | nil => simp
  | cons first others inductionHypothesis =>
    obtain ⟨front, back, firstWritten, othersWritten, -⟩ := joined_cons_eq_ok written
    intro piece member
    rcases List.mem_cons.mp member with rfl | member
    · exact ⟨front, firstWritten⟩
    · exact inductionHypothesis othersWritten piece member

/-- A piece that is checked before it is written has no fault if it is written. -/
theorem faultless_of_checked {part : Section} {fault : Option ProtocolFault} {piece : Encoding}
    {bytes : Bytes} (written : checked part fault piece = .ok bytes) :
    fault = none ∧ piece = .ok bytes := by
  cases fault with
  | none => exact ⟨rfl, written⟩
  | some fault => cases written

/-- What is to be read back may be taken to have been written. -/
theorem ReadBack.of_written {piece : Encoding} {decoder : Decoder α} {value : α}
    (read : ∀ bytes, piece = .ok bytes → ReadBack piece decoder value) :
    ReadBack piece decoder value :=
  fun bytes written => read bytes written bytes written

/-- A piece in front of others is read back in front of them. -/
theorem ReadBack.cons {piece : Encoding} {pieces : List Encoding} {decoder : Decoder α}
    {f : α → Decoder β} {a : α} {b : β} (first : ReadBack piece decoder a)
    (others : ReadBack (joined pieces) (f a) b) :
    ReadBack (joined (piece :: pieces)) (decoder >>= f) b := by
  intro bytes written
  obtain ⟨front, back, firstWritten, othersWritten, rfl⟩ := joined_cons_eq_ok written
  exact (first front firstWritten).bind (others back othersWritten)

/-- A piece in front of others whose decoder depends on a condition. What follows is read after
either of the two decoders. -/
theorem ReadBack.cons_ite {piece : Encoding} {pieces : List Encoding} {c : Prop} [Decidable c]
    {d e : Decoder α} {f : α → Decoder β} {a : α} {b : β}
    (first : ReadBack piece (if c then d else e) a)
    (others : ReadBack (joined pieces) (f a) b) :
    ReadBack (joined (piece :: pieces)) (if c then d >>= f else e >>= f) b := by
  have shared : (if c then d >>= f else e >>= f) = (if c then d else e) >>= f := by
    split <;> rfl
  rw [shared]
  exact first.cons others

/-- Pieces that are read back together in front of others. -/
theorem ReadBack.append {pieces others : List Encoding} {decoder : Decoder α} {f : α → Decoder β}
    {a : α} {b : β} (first : ReadBack (joined pieces) decoder a)
    (rest : ReadBack (joined others) (f a) b) :
    ReadBack (joined (pieces ++ others)) (decoder >>= f) b := by
  rw [← joined_joined_cons]
  exact first.cons rest

/-- What follows a piece may need no bytes of its own. -/
theorem ReadBack.bind {piece : Encoding} {decoder : Decoder α} {f : α → Decoder β} {a : α} {b : β}
    (read : ReadBack piece decoder a) (rest : (f a).Reads [] b) :
    ReadBack piece (decoder >>= f) b := by
  intro bytes written
  have whole := (read bytes written).bind rest
  rwa [List.append_nil] at whole

/-- A value is made of the last piece. -/
theorem ReadBack.map {piece : Encoding} {decoder : Decoder α} {a : α} (make : α → β)
    (read : ReadBack piece decoder a) :
    ReadBack piece (do return make (← decoder)) (make a) :=
  read.bind (Decoder.reads_pure (make a))

/-- A single piece is joined with nothing. -/
theorem ReadBack.single {piece : Encoding} {decoder : Decoder α} {a : α}
    (read : ReadBack piece decoder a) : ReadBack (joined [piece]) decoder a := by
  have whole := read.cons (f := pure) (readBack_nil a)
  rwa [bind_pure] at whole

/-- A piece that is read back behind the entry of a section, and that is written as some bytes, is
what these bytes are as a whole. -/
theorem ReadBack.whole {piece : Encoding} {decoder body : Decoder α} {a : α} {part : Section}
    {bytes : Bytes} (read : ReadBack piece body a)
    (entered : decoder = do Decoder.enter part; body) (written : piece = .ok bytes)
    (leftOver : Nat → ProtocolFault) : decoder.whole leftOver bytes = .ok a := by
  rw [entered]
  exact ((read bytes written).takes.enter part).whole leftOver

/-- Only a piece without faults is written, so only that one has to be read back. -/
theorem readBack_checked {part : Section} {fault : Option ProtocolFault} {piece : Encoding}
    {decoder : Decoder α} {value : α} (sound : fault = none → ReadBack piece decoder value) :
    ReadBack (checked part fault piece) decoder value := by
  intro bytes written
  obtain ⟨faultless, pieceWritten⟩ := faultless_of_checked written
  exact sound faultless bytes pieceWritten

/-- A signed integer that is written is read back. -/
theorem readBack_int32 (i : Int32) : ReadBack (int32 i) Decoder.int32 i :=
  readBack_ok (Decoder.reads_int32 i)

/-- An unsigned integer that is written is read back. -/
theorem readBack_uint32 (i : UInt32) : ReadBack (uint32 i) Decoder.uint32 i :=
  readBack_ok (Decoder.reads_uint32 i)

/-- A floating point number that is written is read back. -/
theorem readBack_float64 (x : Binary64) : ReadBack (float64 x) Decoder.float64 x :=
  readBack_ok (Decoder.reads_float64 x)

/-- A truth value that is written is read back. -/
theorem readBack_truth (b : Bool) : ReadBack (truth b) Decoder.truth b :=
  readBack_ok (Decoder.reads_truth b)

/-- A count that is written fits its word, and is the number that the word denotes. -/
theorem readBack_count (part : Section) (n : Nat) : ReadBack (count part n) Decoder.count n := by
  intro bytes written
  unfold count at written
  split at written
  · next fits =>
    cases written
    have read := (Decoder.reads_uint32 (UInt32.ofNat n)).map UInt32.toNat
    rwa [UInt32.toNat_ofNat_of_lt' fits] at read
  · cases written

/-- Bytes behind their number. -/
theorem readBack_blob (part : Section) (bytes : Bytes) :
    ReadBack (blob part bytes) Decoder.blob bytes :=
  (readBack_count part bytes.length).cons (readBack_ok (Decoder.reads_take .blob bytes)).single

/-- A text that is written keeps to its limit, and its bytes are UTF-8. -/
theorem readBack_text (part : Section) (limit : Nat) (t : Text) :
    ReadBack (text part limit t) (Decoder.text limit) t := by
  unfold text
  split
  · intro bytes written
    cases written
  · next within =>
    have size : t.utf8.length ≤ limit := by
      rw [Text.length_utf8]
      exact Nat.le_of_not_lt within
    refine (readBack_count part t.utf8.length).cons (ReadBack.single ?_)
    rw [if_neg (Nat.not_lt_of_le size)]
    refine (readBack_ok (Decoder.reads_take .text t.utf8)).bind ?_
    simpa only [Text.ofUtf8?_utf8] using Decoder.reads_pure t

/-- Words behind their number, which is the expected one. -/
theorem readBack_words (part : Section) {width : Nat} (row : List (BitVec (8 * width))) :
    ReadBack (words part width row) (Decoder.words width row.length) row := by
  have contents : ReadBack (.ok (row.flatMap Word.bits))
      (if row.length ≠ row.length then Decoder.refuse (.elementCount row.length row.length)
        else do return Decoder.row width row.length (← Decoder.take .array (row.length * width)))
      row := by
    rw [if_neg (not_not_intro rfl)]
    exact readBack_ok (Decoder.reads_row width row)
  exact (readBack_count part row.length).cons contents.single

/-- The code of a type is read back as the type. -/
theorem readBack_elementType (type : ElementType) :
    ReadBack (int32 type.code) Decoder.elementType type := by
  refine (readBack_int32 type.code).bind ?_
  simpa only [ElementType.ofCode?_code] using Decoder.reads_pure type

/-- Pieces for the members of a list are read back by a decoder for each of them. The decoder of a
member may be told what the piece was written for. -/
theorem readBack_forEach {α β γ : Type} (encode : α → Encoding) (decoder : β → Decoder γ)
    (told : α → β) (value : α → γ) (members : List α)
    (each : ∀ a ∈ members, ReadBack (encode a) (decoder (told a)) (value a)) :
    ReadBack (joined (members.map encode)) (Decoder.forEach decoder (members.map told))
      (members.map value) := by
  induction members with
  | nil => exact readBack_nil []
  | cons a others inductionHypothesis =>
    have rest := inductionHypothesis fun b member => each b (List.mem_cons_of_mem a member)
    have first := each a List.mem_cons_self
    exact first.cons (rest.map (value a :: ·))

/-- Pieces of one kind are read back by their number. -/
theorem readBack_repeated {α β : Type} (encode : α → Encoding) (decoder : Decoder β)
    (value : α → β) (members : List α)
    (each : ∀ a ∈ members, ReadBack (encode a) decoder (value a)) :
    ReadBack (joined (members.map encode)) (Decoder.repeated decoder members.length)
      (members.map value) := by
  induction members with
  | nil => exact readBack_nil []
  | cons a others inductionHypothesis =>
    have rest := inductionHypothesis fun b member => each b (List.mem_cons_of_mem a member)
    have first := each a List.mem_cons_self
    exact first.cons (rest.map (value a :: ·))

/-- Values of one kind whose pieces lie in several sections are taken by their number. -/
theorem takes_repeated {α β : Type} (encode : α → Encoding) (decoder : Decoder β) (value : α → β)
    (members : List α)
    (each : ∀ a ∈ members, ∀ bytes, encode a = .ok bytes → decoder.Takes bytes (value a))
    {bytes : Bytes} (written : joined (members.map encode) = .ok bytes) :
    (Decoder.repeated decoder members.length).Takes bytes (members.map value) := by
  induction members generalizing bytes with
  | nil =>
    cases written
    exact (Decoder.reads_pure []).takes
  | cons a others inductionHypothesis =>
    obtain ⟨front, back, firstWritten, othersWritten, rfl⟩ := joined_cons_eq_ok written
    have first := each a List.mem_cons_self front firstWritten
    have rest := inductionHypothesis (fun b member => each b (List.mem_cons_of_mem a member))
      othersWritten
    exact first.bind (rest.map (value a :: ·))

end Encoding

end SignalAccess

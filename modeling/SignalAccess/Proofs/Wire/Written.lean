import Mathlib.Algebra.GroupWithZero.Nat
import SignalAccess.Proofs.Wire.ReadBack

/-!
# What can be written

A piece can be written unless a text is too long for its field, a count does not fit its word, or a
check finds a fault. Joined pieces can be written exactly if each of them can, and their bytes are
those of the pieces one behind the other. So whether a composite can be written, and how long it is,
follows from its parts.
-/

namespace SignalAccess

/-- The limit of a field is a length that can be announced. -/
theorem Limit.field_lt : Limit.field < UInt32.size := by decide

/-- The limit of a long text is a length that can be announced. -/
theorem Limit.long_lt : Limit.long < UInt32.size := by decide

namespace Encoding

/-- The piece can be written. -/
def IsWritten (piece : Encoding) : Prop := ∃ bytes, piece = .ok bytes

variable {piece : Encoding} {pieces : List Encoding}

/-- Bytes that are given are written. -/
theorem isWritten_ok (bytes : Bytes) : IsWritten (.ok bytes) := ⟨bytes, rfl⟩

/-- What is written of bytes that are given are these bytes. -/
@[simp] theorem written_ok (bytes : Bytes) : written (.ok bytes) = bytes := rfl

/-- A piece that is written is its bytes. -/
theorem IsWritten.eq_written (written : piece.IsWritten) : piece = .ok piece.written := by
  obtain ⟨bytes, rfl⟩ := written
  rfl

/-- The bytes of a piece that is written are those it comes to. -/
theorem written_of_eq_ok {bytes : Bytes} (done : piece = .ok bytes) : piece.written = bytes := by
  rw [done, written_ok]

/-- Joined pieces can be written exactly if each of them can. -/
theorem isWritten_joined_iff : (joined pieces).IsWritten ↔ ∀ piece ∈ pieces, piece.IsWritten := by
  constructor
  · rintro ⟨bytes, done⟩
    exact written_of_joined done
  · intro all
    induction pieces with
    | nil => exact isWritten_ok []
    | cons piece pieces inductionHypothesis =>
      obtain ⟨front, frontWritten⟩ := all piece List.mem_cons_self
      obtain ⟨back, backWritten⟩ := inductionHypothesis fun other member =>
        all other (List.mem_cons_of_mem piece member)
      refine ⟨front ++ back, ?_⟩
      simp [joined, frontWritten, backWritten, bind, Except.bind, pure, Except.pure]

/-- A first piece and further ones that can be written can be written together. -/
theorem isWritten_joined_cons (first : piece.IsWritten) (others : (joined pieces).IsWritten) :
    (joined (piece :: pieces)).IsWritten := by
  rw [isWritten_joined_iff] at others ⊢
  exact List.forall_mem_cons.mpr ⟨first, others⟩

/-- Pieces for the members of a list can be written together if each of them can. -/
theorem isWritten_joined_map {α : Type} {encode : α → Encoding} {members : List α}
    (each : ∀ a ∈ members, (encode a).IsWritten) : (joined (members.map encode)).IsWritten := by
  rw [isWritten_joined_iff]
  intro piece member
  obtain ⟨a, inMembers, rfl⟩ := List.mem_map.mp member
  exact each a inMembers

/-- The bytes of joined pieces are those of the pieces one behind the other. -/
theorem written_joined {bytes : Bytes} (done : joined pieces = .ok bytes) :
    bytes = pieces.flatMap written := by
  induction pieces generalizing bytes with
  | nil =>
    cases done
    rfl
  | cons piece pieces inductionHypothesis =>
    obtain ⟨front, back, frontWritten, backWritten, rfl⟩ := joined_cons_eq_ok done
    rw [List.flatMap_cons, written_of_eq_ok frontWritten, ← inductionHypothesis backWritten]

/-- A piece that is checked can be written if the check finds nothing. -/
theorem isWritten_checked {part : Section} {fault : Option ProtocolFault} (sound : fault = none)
    (written : piece.IsWritten) : (checked part fault piece).IsWritten := by
  rw [sound]
  exact written

/-- Every signed integer can be written. -/
theorem isWritten_int32 (i : Int32) : (int32 i).IsWritten := isWritten_ok _

/-- Every truth value can be written. -/
theorem isWritten_truth (b : Bool) : (truth b).IsWritten := isWritten_ok _

/-- Every floating point number can be written. -/
theorem isWritten_float64 (x : Binary64) : (float64 x).IsWritten := isWritten_ok _

variable {part : Section}

/-- A count that fits a word takes four bytes. -/
theorem count_eq_ok {n : Nat} (fits : n < UInt32.size) :
    count part n = .ok (Word.uint32 (UInt32.ofNat n)) := if_pos fits

/-- A count that fits its word can be written. -/
theorem isWritten_count {n : Nat} (fits : n < UInt32.size) : (count part n).IsWritten :=
  ⟨_, count_eq_ok fits⟩

/-- Bytes whose number fits a word. -/
theorem isWritten_blob {bytes : Bytes} (fits : bytes.length < UInt32.size) :
    (blob part bytes).IsWritten :=
  isWritten_joined_cons (isWritten_count fits)
    (isWritten_joined_cons (isWritten_ok bytes) (isWritten_ok []))

/-- A text that keeps to its limit takes its bytes and a word in front of them. -/
theorem text_eq_ok {limit : Nat} {t : Text} (within : t.byteLength ≤ limit)
    (fits : limit < UInt32.size) :
    text part limit t = .ok (Word.uint32 (UInt32.ofNat t.byteLength) ++ t.utf8) := by
  have counted : count part t.byteLength = .ok (Word.uint32 (UInt32.ofNat t.byteLength)) :=
    count_eq_ok (Nat.lt_of_le_of_lt within fits)
  rw [text, if_neg (Nat.not_lt_of_le within), blob, Text.length_utf8]
  simp [joined, counted, bind, Except.bind, pure, Except.pure]

/-- A text within a limit that can be announced can be written. -/
theorem isWritten_text {limit : Nat} {t : Text} (within : t.byteLength ≤ limit)
    (fits : limit < UInt32.size) : (text part limit t).IsWritten :=
  ⟨_, text_eq_ok within fits⟩

/-- Words whose number fits a word. -/
theorem isWritten_words {width : Nat} {row : List (BitVec (8 * width))}
    (fits : row.length < UInt32.size) :
    (words part width row).IsWritten :=
  isWritten_joined_cons (isWritten_count fits)
    (isWritten_joined_cons (isWritten_ok _) (isWritten_ok []))

/-! ## Lengths -/

/-- The piece can be written, and takes so many bytes. -/
def HasLength (n : Nat) (piece : Encoding) : Prop := ∃ bytes, piece = .ok bytes ∧ bytes.length = n

/-- Bytes that are given have their own length. -/
theorem hasLength_ok (bytes : Bytes) : HasLength bytes.length (.ok bytes) := ⟨bytes, rfl, rfl⟩

/-- No pieces have no length. -/
theorem hasLength_joined_nil : (joined []).HasLength [].sum := hasLength_ok []

/-- A first piece and further ones take together what they take each. -/
theorem HasLength.cons {n : Nat} {lengths : List Nat} (first : piece.HasLength n)
    (others : (joined pieces).HasLength lengths.sum) :
    (joined (piece :: pieces)).HasLength (n :: lengths).sum := by
  obtain ⟨front, frontWritten, rfl⟩ := first
  obtain ⟨back, backWritten, others⟩ := others
  refine ⟨front ++ back, ?_, ?_⟩
  · simp [joined, frontWritten, backWritten, bind, Except.bind, pure, Except.pure]
  · rw [List.length_append, others, List.sum_cons]

/-- Pieces for the members of a list take together the sum of what they take each. -/
theorem hasLength_joined_map {α : Type} {encode : α → Encoding} {length : α → Nat}
    {members : List α} (each : ∀ a ∈ members, (encode a).HasLength (length a)) :
    (joined (members.map encode)).HasLength (members.map length).sum := by
  induction members with
  | nil => exact hasLength_joined_nil
  | cons a members inductionHypothesis =>
    exact (each a List.mem_cons_self).cons
      (inductionHypothesis fun other member => each other (List.mem_cons_of_mem a member))

/-- The length of one of two pieces is chosen by the condition that chooses the piece. -/
theorem hasLength_ite {c : Prop} [Decidable c] {other : Encoding} {m n : Nat}
    (yes : piece.HasLength m) (no : other.HasLength n) :
    HasLength (if c then m else n) (if c then piece else other) := by
  split
  · exact yes
  · exact no

/-- A signed integer has four bytes. -/
theorem hasLength_int32 (i : Int32) : (int32 i).HasLength 4 :=
  ⟨Word.int32 i, rfl, Word.length_int32 i⟩

/-- An unsigned integer has four bytes. -/
theorem hasLength_uint32 (i : UInt32) : (uint32 i).HasLength 4 :=
  ⟨Word.uint32 i, rfl, Word.length_uint32 i⟩

/-- A truth value has four bytes. -/
theorem hasLength_truth (b : Bool) : (truth b).HasLength 4 :=
  ⟨Word.truth b, rfl, Word.length_truth b⟩

/-- A count that fits its word has four bytes. -/
theorem hasLength_count {n : Nat} (fits : n < UInt32.size) : (count part n).HasLength 4 :=
  ⟨_, count_eq_ok fits, Word.length_uint32 _⟩

/-- A text has its own bytes behind the four of their number. -/
theorem hasLength_text {limit : Nat} {t : Text} (within : t.byteLength ≤ limit)
    (fits : limit < UInt32.size) : (text part limit t).HasLength (4 + t.byteLength) := by
  refine ⟨_, text_eq_ok within fits, ?_⟩
  rw [List.length_append, Word.length_uint32, Text.length_utf8]

/-! ## Sections of refusals -/

/-- The piece can only be refused, if at all, with a fault of one section. -/
def RefusedIn (part : Section) (piece : Encoding) : Prop :=
  ∀ failure, piece = .error failure → ∃ fault, failure = .protocol part fault

/-- Bytes that are given are refused nowhere. -/
theorem refusedIn_ok (bytes : Bytes) : RefusedIn part (.ok bytes) := by
  rintro _ ⟨⟩

/-- A piece that is refused is refused in its own section. -/
theorem refusedIn_refuse (fault : ProtocolFault) : RefusedIn part (refuse part fault) := by
  rintro _ ⟨rfl⟩
  exact ⟨fault, rfl⟩

/-- A checked piece is refused in its section, by the check or by itself. -/
theorem refusedIn_checked {fault : Option ProtocolFault} (refused : piece.RefusedIn part) :
    (checked part fault piece).RefusedIn part := by
  cases fault with
  | none => exact refused
  | some fault => exact refusedIn_refuse fault

/-- What refuses joined pieces refuses one of them. -/
theorem refused_of_joined {failure : Failure} (refused : joined pieces = .error failure) :
    ∃ piece ∈ pieces, piece = .error failure := by
  induction pieces with
  | nil => cases refused
  | cons piece pieces inductionHypothesis =>
    cases first : piece with
    | error other =>
      simp only [joined, first, bind, Except.bind] at refused
      cases refused
      exact ⟨_, List.mem_cons_self, rfl⟩
    | ok front =>
      cases rest : joined pieces with
      | error other =>
        simp only [joined, first, rest, bind, Except.bind] at refused
        cases refused
        obtain ⟨piece, member, same⟩ := inductionHypothesis rest
        exact ⟨piece, List.mem_cons_of_mem _ member, same⟩
      | ok back =>
        simp only [joined, first, rest, bind, Except.bind] at refused
        cases refused

/-- Pieces are refused together in the section in which each of them is. -/
theorem refusedIn_joined (each : ∀ piece ∈ pieces, piece.RefusedIn part) :
    (joined pieces).RefusedIn part := by
  intro failure refused
  obtain ⟨piece, member, same⟩ := refused_of_joined refused
  exact each piece member failure same

/-- The pieces for the members of a list are refused in the section in which each of them is. -/
theorem refusedIn_map {α : Type} {encode : α → Encoding} {members : List α}
    (each : ∀ a ∈ members, (encode a).RefusedIn part) :
    (joined (members.map encode)).RefusedIn part := by
  apply refusedIn_joined
  intro piece member
  obtain ⟨a, inMembers, rfl⟩ := List.mem_map.mp member
  exact each a inMembers

/-- Of two pieces, each has to be refused in the section. -/
theorem refusedIn_ite {c : Prop} [Decidable c] {other : Encoding} (yes : piece.RefusedIn part)
    (no : other.RefusedIn part) : RefusedIn part (if c then piece else other) := by
  split
  · exact yes
  · exact no

/-- A signed integer is never refused. -/
theorem refusedIn_int32 (i : Int32) : (int32 i).RefusedIn part := refusedIn_ok _

/-- A truth value is never refused. -/
theorem refusedIn_truth (b : Bool) : (truth b).RefusedIn part := refusedIn_ok _

/-- A floating point number is never refused. -/
theorem refusedIn_float64 (x : Binary64) : (float64 x).RefusedIn part := refusedIn_ok _

/-- A count is refused in its own section. -/
theorem refusedIn_count (n : Nat) : (count part n).RefusedIn part :=
  refusedIn_ite (refusedIn_ok _) (refusedIn_refuse _)

/-- Bytes behind their number are refused in their own section. -/
theorem refusedIn_blob (bytes : Bytes) : (blob part bytes).RefusedIn part := by
  apply refusedIn_joined
  simp [refusedIn_count, refusedIn_ok]

/-- A text is refused in its own section. -/
theorem refusedIn_text (limit : Nat) (t : Text) : (text part limit t).RefusedIn part :=
  refusedIn_ite (refusedIn_refuse _) (refusedIn_blob _)

/-- A row of words is refused in its own section. -/
theorem refusedIn_words {width : Nat} (row : List (BitVec (8 * width))) :
    (words part width row).RefusedIn part := by
  apply refusedIn_joined
  simp [refusedIn_count, refusedIn_ok]

end Encoding

end SignalAccess

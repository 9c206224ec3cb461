import Mathlib.Data.List.Forall2
import SignalAccess.Proofs.Wire.ReadBack

/-!
# What a decoder can give

Whatever the bytes, a decoder gives only values of some kind: a count fits its word, a text keeps to
the limit of its field, a row has as many words as were announced. What a composite decoder gives is
made of what its parts give, so a property of all values that can be read follows the definition of
the reader field by field, as reading back does.
-/

namespace SignalAccess

namespace Decoder

variable {α β : Type}

/-- Every value that the decoder gives, from any input, has a property. -/
def Yields (decoder : Decoder α) (property : α → Prop) : Prop :=
  ∀ input rest value, decoder input = .ok value rest → property value

variable {decoder : Decoder α} {property : α → Prop}

/-- Nothing is said of a value by what holds of every value. -/
theorem yields_true (decoder : Decoder α) : decoder.Yields fun _ => True :=
  fun _ _ _ _ => trivial

/-- A step that gives a value yields what holds of it. -/
theorem yields_pure {value : α} (given : property value) :
    Yields (pure value : Decoder α) property := by
  intro input rest other read
  cases read
  exact given

/-- A decoder that refuses its input gives nothing. -/
theorem yields_refuse (fault : ProtocolFault) : (refuse fault : Decoder α).Yields property := by
  intro input rest value read
  cases read

/-- What is said of the value may be weakened. -/
theorem Yields.mono {weaker : α → Prop} (yields : decoder.Yields property)
    (implied : ∀ value, property value → weaker value) : decoder.Yields weaker :=
  fun input rest value read => implied value (yields input rest value read)

/-- Two things that are said of the value hold together. -/
theorem Yields.and {other : α → Prop} (yields : decoder.Yields property)
    (also : decoder.Yields other) : decoder.Yields fun value => property value ∧ other value :=
  fun input rest value read => ⟨yields input rest value read, also input rest value read⟩

/-- A decoder that goes on gives what the second one gives behind any value of the first. -/
theorem Yields.bind {f : α → Decoder β} {last : β → Prop} (first : decoder.Yields property)
    (second : ∀ value, property value → (f value).Yields last) :
    Yields (decoder >>= f) last := by
  intro input rest value read
  obtain ⟨a, next, firstRead, secondRead⟩ := bind_eq_ok read
  exact second a (first input next a firstRead) next rest value secondRead

/-- What comes before may be of no concern. -/
theorem Yields.behind {f : α → Decoder β} {last : β → Prop}
    (second : ∀ value, (f value).Yields last) : Yields (decoder >>= f) last :=
  (yields_true decoder).bind fun value _ => second value

/-- A value is made of what a decoder gives. -/
theorem Yields.map {made : β → Prop} {make : α → β} (yields : decoder.Yields property)
    (all : ∀ value, property value → made (make value)) :
    Yields (do return make (← decoder)) made :=
  yields.bind fun value given => yields_pure (all value given)

/-- Of two ways to go on, each has to yield what is said under its own condition. -/
theorem Yields.ite {c : Prop} [Decidable c] {other : Decoder α}
    (yes : c → decoder.Yields property) (no : ¬ c → other.Yields property) :
    (if c then decoder else other).Yields property := by
  split
  · next holds => exact yes holds
  · next fails => exact no fails

/-- A decoder that goes on in the same way behind either of two decoders. -/
theorem Yields.bind_ite {c : Prop} [Decidable c] {other : Decoder α} {f : α → Decoder β}
    {last : β → Prop} (first : (if c then decoder else other).Yields property)
    (second : ∀ value, property value → (f value).Yields last) :
    (if c then decoder >>= f else other >>= f).Yields last := by
  have shared : (if c then decoder >>= f else other >>= f) =
      (if c then decoder else other) >>= f := by
    split <;> rfl
  rw [shared]
  exact first.bind second

/-- A number that is read fits its word. -/
theorem yields_count : count.Yields (· < UInt32.size) :=
  (yields_true uint32).map fun i _ => i.toNat_lt

/-- Bytes that are taken are as many as asked for. -/
theorem yields_take (what : WirePart) (needed : Nat) :
    (take what needed).Yields (·.length = needed) := by
  intro input rest bytes read
  unfold take at read
  split at read
  · cases read
  · next enough =>
    cases read
    rw [List.length_take]
    omega

/-- Bytes that are read behind their number are fewer than 2^32. -/
theorem yields_blob : blob.Yields (·.length < UInt32.size) :=
  yields_count.bind fun size fits => (yields_take .blob size).mono fun bytes length => by omega

/-- A text that is read keeps to its limit: its bytes are those that were taken. -/
theorem yields_text (limit : Nat) : (text limit).Yields (·.byteLength ≤ limit) := by
  refine Yields.behind fun size => Yields.ite (fun _ => yields_refuse _) fun within => ?_
  refine (yields_take .text size).bind fun bytes length => ?_
  cases decoded : Text.ofUtf8? bytes with
  | none => exact yields_refuse _
  | some t =>
    refine yields_pure ?_
    have same : t.byteLength = size := by
      rw [← length, ← Text.utf8_of_ofUtf8? decoded, Text.length_utf8]
    omega

/-- A row is read with as many words as it is said to have. -/
theorem length_row (width length : Nat) (bytes : Bytes) :
    (row width length bytes).length = length := by
  induction length generalizing bytes with
  | zero => rfl
  | succ length inductionHypothesis => rw [row, List.length_cons, inductionHypothesis]

/-- A row has as many words as announced, and a number of them that fits a word. -/
theorem yields_words (width expected : Nat) :
    (words width expected).Yields fun row => row.length = expected ∧ expected < UInt32.size := by
  refine yields_count.bind fun carried fits => Yields.ite (fun _ => yields_refuse _) fun same => ?_
  obtain rfl : carried = expected := Classical.not_not.mp same
  exact (yields_true _).map fun bytes _ => ⟨length_row width carried bytes, fits⟩

/-- Values of one kind are as many as asked for, and each is of the kind. -/
theorem yields_repeated (yields : decoder.Yields property) (n : Nat) :
    (repeated decoder n).Yields fun values =>
      values.length = n ∧ ∀ value ∈ values, property value := by
  induction n with
  | zero => exact yields_pure ⟨rfl, by simp⟩
  | succ n inductionHypothesis =>
    refine yields.bind fun first given => inductionHypothesis.map fun others all => ?_
    exact ⟨by rw [List.length_cons, all.1], List.forall_mem_cons.mpr ⟨given, all.2⟩⟩

/-- Values for the members of a list stand to them, one by one, as each value stands to its member. -/
theorem yields_forEach {member : β → Decoder α} {relation : β → α → Prop} {members : List β}
    (each : ∀ b ∈ members, (member b).Yields (relation b)) :
    (forEach member members).Yields (List.Forall₂ relation members) := by
  induction members with
  | nil => exact yields_pure .nil
  | cons b others inductionHypothesis =>
    have rest := inductionHypothesis fun other inOthers =>
      each other (List.mem_cons_of_mem b inOthers)
    refine (each b List.mem_cons_self).bind fun first given => rest.map fun values all => ?_
    exact .cons given all

/-- Values for the members of a list are as many as these. What each of them has, all of them have. -/
theorem yields_forEach_all {member : β → Decoder α} {members : List β}
    (each : ∀ b ∈ members, (member b).Yields property) :
    (forEach member members).Yields fun values =>
      values.length = members.length ∧ ∀ value ∈ values, property value := by
  have related : (forEach member members).Yields
      (List.Forall₂ (fun _ value => property value ∧ True) members) :=
    yields_forEach fun b inMembers => (each b inMembers).mono fun value given => ⟨given, trivial⟩
  refine related.mono fun values all => ⟨all.length_eq.symm, ?_⟩
  exact ((List.forall₂_and_left values members).mp (List.Forall₂.flip all)).1

/-- What a whole value has is what its decoder gives. -/
theorem Yields.of_whole {leftOver : Nat → ProtocolFault} {bytes : Bytes} {value : α}
    (yields : decoder.Yields property) (read : decoder.whole leftOver bytes = .ok value) :
    property value := by
  unfold whole at read
  split at read
  · cases read
  · next other rest given =>
    split at read
    · cases read
      exact yields _ rest _ given
    · cases read

end Decoder

end SignalAccess

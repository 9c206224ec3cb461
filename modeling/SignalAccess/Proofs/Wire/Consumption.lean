import SignalAccess.Proofs.Wire.Yield

/-!
# What a decoder takes

A decoder takes its bytes from the front of its input, and how many it takes bounds what it can give:
a count takes four bytes, a text or a row four bytes and its contents. What a composite decoder takes
is what its parts take together, so a bound on all values that can be read follows the definition of
the reader, like a property of them does.
-/

namespace SignalAccess

namespace Decoder

variable {α β : Type}

/-- Whatever the input, the bytes that the decoder takes stand at its front, and the value that it
gives is related to their number. -/
def Uses (decoder : Decoder α) (related : α → Nat → Prop) : Prop :=
  ∀ input rest value, decoder input = .ok value rest →
    ∃ taken, input.bytes = taken ++ rest.bytes ∧ related value taken.length

variable {decoder : Decoder α} {related : α → Nat → Prop}

/-- A step that only gives a value takes nothing. -/
theorem uses_pure {value : α} (given : related value 0) : Uses (pure value : Decoder α) related := by
  intro input rest other read
  cases read
  exact ⟨[], rfl, given⟩

/-- A decoder that refuses its input gives nothing. -/
theorem uses_refuse (fault : ProtocolFault) : (refuse fault : Decoder α).Uses related := by
  intro input rest value read
  cases read

/-- A step that fails takes nothing that counts. -/
theorem uses_throw (failure : Failure) : (throw failure : Decoder α).Uses related := by
  intro input rest value read
  cases read

/-- What is said of the value and the bytes may be weakened. -/
theorem Uses.mono {weaker : α → Nat → Prop} (uses : decoder.Uses related)
    (implied : ∀ value n, related value n → weaker value n) : decoder.Uses weaker := by
  intro input rest value read
  obtain ⟨taken, split, given⟩ := uses input rest value read
  exact ⟨taken, split, implied value _ given⟩

/-- What is known of all values that a decoder gives may be used with what it takes. -/
theorem Uses.and_yields {property : α → Prop} (uses : decoder.Uses related)
    (yields : decoder.Yields property) :
    decoder.Uses fun value n => related value n ∧ property value := by
  intro input rest value read
  obtain ⟨taken, split, given⟩ := uses input rest value read
  exact ⟨taken, split, given, yields input rest value read⟩

/-- A decoder that goes on takes the bytes of the second one behind those of the first. -/
theorem Uses.bind {f : α → Decoder β} {last : β → Nat → Prop} (first : decoder.Uses related)
    (second : ∀ value n, related value n → (f value).Uses fun b m => last b (n + m)) :
    Uses (decoder >>= f) last := by
  intro input rest value read
  obtain ⟨a, next, firstRead, secondRead⟩ := bind_eq_ok read
  obtain ⟨front, split, given⟩ := first input next a firstRead
  obtain ⟨back, splitNext, made⟩ := second a _ given next rest value secondRead
  refine ⟨front ++ back, ?_, ?_⟩
  · rw [split, splitNext, List.append_assoc]
  · rwa [List.length_append]

/-- A value is made of what a decoder gives, and takes no more bytes. -/
theorem Uses.map {made : β → Nat → Prop} {make : α → β} (uses : decoder.Uses related)
    (all : ∀ value n, related value n → made (make value) n) :
    Uses (do return make (← decoder)) made :=
  uses.bind fun value n given => uses_pure (all value n given)

/-- Of two ways to go on, each has to take what is said under its own condition. -/
theorem Uses.ite {c : Prop} [Decidable c] {other : Decoder α} (yes : c → decoder.Uses related)
    (no : ¬ c → other.Uses related) : (if c then decoder else other).Uses related := by
  split
  · next holds => exact yes holds
  · next fails => exact no fails

/-- Taking a number of bytes takes this number. -/
theorem uses_take (what : WirePart) (needed : Nat) :
    (take what needed).Uses fun _ n => n = needed := by
  intro input rest bytes read
  unfold take at read
  split at read
  · cases read
  · next enough =>
    cases read
    refine ⟨input.bytes.take needed, (List.take_append_drop needed input.bytes).symm, ?_⟩
    rw [List.length_take]
    omega

/-- An integer of 32 bits takes four bytes. -/
theorem uses_int32 : int32.Uses fun _ n => n = 4 := (uses_take .int32 4).map fun _ _ => id

/-- A count takes four bytes, and fits its word. -/
theorem uses_count : count.Uses fun size n => n = 4 ∧ size < UInt32.size :=
  ((uses_take .uint32 4).map (fun _ _ => id) : uint32.Uses fun _ n => n = 4).map (fun _ _ => id)
    |>.and_yields yields_count

/-- A text takes the four bytes of its length at least. -/
theorem uses_text (limit : Nat) : (text limit).Uses fun _ n => 4 ≤ n := by
  refine uses_count.bind fun size n counted => Uses.ite (fun _ => uses_refuse _) fun _ => ?_
  refine (uses_take .text size).bind fun bytes m taken => ?_
  cases Text.ofUtf8? bytes with
  | none => exact uses_refuse _
  | some t => exact uses_pure (by omega)

/-- A row of words takes the four bytes of its length at least. -/
theorem uses_words (width expected : Nat) : (words width expected).Uses fun _ n => 4 ≤ n := by
  refine uses_count.bind fun carried n counted => Uses.ite (fun _ => uses_refuse _) fun _ => ?_
  exact (uses_take .array (carried * width)).map fun bytes m taken => by omega

variable {whole : List α → Nat → Prop}

/-- Values of one kind take what each of them takes. A relation to all the bytes is made up from the
relations of the single values to theirs. -/
theorem uses_repeated (each : decoder.Uses related) (nil : whole [] 0)
    (cons : ∀ value n values m, related value n → whole values m → whole (value :: values) (n + m))
    (size : Nat) :
    (repeated decoder size).Uses fun values n => values.length = size ∧ whole values n := by
  induction size with
  | zero => exact uses_pure ⟨rfl, nil⟩
  | succ size inductionHypothesis =>
    refine each.bind fun value n given => inductionHypothesis.map fun values m all => ?_
    exact ⟨congrArg (· + 1) all.1, cons value n values m given all.2⟩

/-- Values of one kind take bytes from the front if each of them does. -/
theorem uses_repeated_any (each : decoder.Uses fun _ _ => True) (size : Nat) :
    (repeated decoder size).Uses fun _ _ => True := by
  have counted : (repeated decoder size).Uses fun values _ => values.length = size ∧ True :=
    uses_repeated each trivial (fun _ _ _ _ _ _ => trivial) size
  exact counted.mono fun _ _ _ => trivial

/-- Values for the members of a list take what each of them takes. -/
theorem uses_forEach {member : β → Decoder α} {members : List β}
    (each : ∀ b ∈ members, (member b).Uses related) (nil : whole [] 0)
    (cons : ∀ value n values m, related value n → whole values m → whole (value :: values) (n + m)) :
    (forEach member members).Uses fun values n => values.length = members.length ∧ whole values n := by
  induction members with
  | nil => exact uses_pure ⟨rfl, nil⟩
  | cons b others inductionHypothesis =>
    have rest := inductionHypothesis fun other inOthers =>
      each other (List.mem_cons_of_mem b inOthers)
    refine (each b List.mem_cons_self).bind fun value n given => rest.map fun values m all => ?_
    exact ⟨congrArg (· + 1) all.1, cons value n values m given all.2⟩

end Decoder

end SignalAccess

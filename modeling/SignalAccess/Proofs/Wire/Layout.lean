import SignalAccess.Proofs.Wire.ReadBack

/-!
# Layouts

Written bytes lie in sections: a layout lists the runs of bytes of one section each, in the order of
the wire. A decoder follows a layout if it takes all of its bytes and, given only the first ones,
fails against the section of the first byte that is missing. Empty runs have no such byte, so a
section that happens to be empty is never named.

What a decoder makes of a whole layout may be a failure: the document of an object can be refused
after all of its bytes were taken.
-/

namespace SignalAccess

/-- Runs of bytes and their sections, in the order of the wire. -/
abbrev Layout := List (Section × Bytes)

namespace Layout

/-- The bytes of a layout. -/
def bytes (layout : Layout) : Bytes := layout.flatMap (·.2)

/-- The section of the byte at a position. -/
def sectionAt : Layout → (position : Nat) → Option Section
  | [], _ => none
  | (part, run) :: others, position =>
    if position < run.length then some part else sectionAt others (position - run.length)

/-- A layout without runs has no bytes. -/
@[simp] theorem bytes_nil : bytes [] = [] := rfl

/-- Layouts one behind the other have the bytes of the first in front of those of the second. -/
@[simp] theorem bytes_append (first second : Layout) :
    bytes (first ++ second) = first.bytes ++ second.bytes := List.flatMap_append

/-- A layout of one run has its bytes. -/
@[simp] theorem bytes_single (part : Section) (run : Bytes) : bytes [(part, run)] = run := by
  simp [bytes]

/-- A layout made member by member has the bytes of each of them in their order. -/
theorem bytes_flatMap {α : Type} (layout : α → Layout) (members : List α) :
    bytes (members.flatMap layout) = members.flatMap fun a => (layout a).bytes :=
  List.flatMap_assoc

/-- Each byte has the section that it has in its own part of the layout. -/
theorem sectionAt_append (first second : Layout) (position : Nat) :
    sectionAt (first ++ second) position =
      if position < first.bytes.length then first.sectionAt position
      else second.sectionAt (position - first.bytes.length) := by
  induction first generalizing position with
  | nil => simp
  | cons run others inductionHypothesis =>
    obtain ⟨part, run⟩ := run
    have length : bytes ((part, run) :: others) = run ++ bytes others := rfl
    simp only [List.cons_append, sectionAt, length, List.length_append]
    by_cases here : position < run.length
    · have inside : position < run.length + (bytes others).length := by omega
      simp [here, inside]
    · rw [if_neg here, if_neg here, inductionHypothesis]
      by_cases inside : position - run.length < (bytes others).length
      · have whole : position < run.length + (bytes others).length := by omega
        simp [inside, whole]
      · have outside : ¬ position < run.length + (bytes others).length := by omega
        simp [inside, outside, Nat.sub_sub]

/-- Every byte of a single run belongs to the section of the run. -/
theorem sectionAt_single {part : Section} {run : Bytes} {position : Nat}
    (inside : position < run.length) : sectionAt [(part, run)] position = some part := by
  simp [sectionAt, inside]

end Layout

namespace Decoder

variable {α β : Type}

/-- A run of a decoder ends with a result. A value leaves the given rest. -/
def EndsWith (run : EStateM.Result Failure Input α) (result : Except Failure α) (rest : Input) :
    Prop :=
  match result with
  | .ok value => run = .ok value rest
  | .error failure => ∃ last, run = .error failure last

/-- A decoder that starts in one section follows a layout, and is in the last section when it has
made its result of all the bytes. -/
structure Follows (start last : Section) (decoder : Decoder α) (layout : Layout)
    (result : Except Failure α) : Prop where
  complete : ∀ back, EndsWith (decoder ⟨layout.bytes ++ back, start⟩) result ⟨back, last⟩
  cut : ∀ position < layout.bytes.length, ∃ part, layout.sectionAt position = some part ∧
    ∃ fault rest, decoder ⟨layout.bytes.take position, start⟩ = .error (.protocol part fault) rest

/-- Bytes of one section are a layout of one run. -/
theorem Reads.follows {decoder : Decoder α} {bytes : Bytes} {value : α}
    (read : Reads decoder bytes value) (part : Section) :
    Follows part part decoder [(part, bytes)] (.ok value) where
  complete back := by
    rw [Layout.bytes_single]
    exact read.complete back part
  cut := by
    intro position short
    rw [Layout.bytes_single] at short ⊢
    refine ⟨part, Layout.sectionAt_single short, ?_⟩
    apply read.cut _ (bytes.drop position) part (List.take_append_drop position bytes).symm
    intro nothing
    have length := congrArg List.length nothing
    rw [List.length_drop, List.length_nil] at length
    omega

/-- A decoder that takes nothing follows the empty layout. -/
theorem follows_nil {start last : Section} {decoder : Decoder α} {result : Except Failure α}
    (ended : ∀ back, EndsWith (decoder ⟨back, start⟩) result ⟨back, last⟩) :
    Follows start last decoder [] result where
  complete := ended
  cut position short := absurd short (Nat.not_lt_zero position)

/-- One decoder behind another follows both layouts. A cut lies in the first layout, where the first
decoder fails, or in the second one. -/
theorem Follows.bind {start middle last : Section} {decoder : Decoder α} {f : α → Decoder β}
    {first second : Layout} {a : α} {result : Except Failure β}
    (front : Follows start middle decoder first (.ok a))
    (back : Follows middle last (f a) second result) :
    Follows start last (decoder >>= f) (first ++ second) result where
  complete := by
    intro rest
    have taken : decoder ⟨first.bytes ++ (second.bytes ++ rest), start⟩ = _ := front.complete _
    rw [Layout.bytes_append, List.append_assoc]
    simp only [Bind.bind, EStateM.bind, taken]
    exact back.complete rest
  cut := by
    intro position short
    rw [Layout.bytes_append, List.length_append] at short
    rw [Layout.sectionAt_append, Layout.bytes_append]
    by_cases inside : position < first.bytes.length
    · obtain ⟨part, found, fault, rest, failed⟩ := front.cut position inside
      rw [if_pos inside, List.take_append_of_le_length (Nat.le_of_lt inside)]
      exact ⟨part, found, fault, rest, by simp only [Bind.bind, EStateM.bind, failed]⟩
    · obtain ⟨part, found, fault, rest, failed⟩ :=
        back.cut (position - first.bytes.length) (by omega)
      have taken : decoder ⟨first.bytes ++ second.bytes.take (position - first.bytes.length), start⟩ =
        _ := front.complete _
      have past : first.bytes.length ≤ position := Nat.le_of_not_lt inside
      rw [if_neg inside, List.take_append, List.take_of_length_le past]
      exact ⟨part, found, fault, rest, by simp only [Bind.bind, EStateM.bind, taken, failed]⟩

/-- What follows a failure does not matter. -/
theorem Follows.stop {start last : Section} {decoder : Decoder α} {layout : Layout}
    {failure : Failure} (follows : Follows start last decoder layout (.error failure))
    (f : α → Decoder β) : Follows start last (decoder >>= f) layout (.error failure) where
  complete := by
    intro back
    obtain ⟨rest, failed⟩ := follows.complete back
    exact ⟨rest, by simp only [Bind.bind, EStateM.bind, failed]⟩
  cut := by
    intro position short
    obtain ⟨part, found, fault, rest, failed⟩ := follows.cut position short
    exact ⟨part, found, fault, rest, by simp only [Bind.bind, EStateM.bind, failed]⟩

/-- A value is made of what a decoder reads from a layout. -/
theorem Follows.map {start last : Section} {decoder : Decoder α} {layout : Layout}
    {result : Except Failure α} (make : α → β) (follows : Follows start last decoder layout result) :
    Follows start last (do return make (← decoder)) layout (result.map make) := by
  cases result with
  | error failure => exact follows.stop _
  | ok value =>
    have made : Follows last last (pure (make value)) [] (.ok (make value)) :=
      follows_nil fun _ => rfl
    have whole := follows.bind (f := fun a => pure (make a)) made
    rwa [List.append_nil] at whole

/-- Entering a section takes no bytes. -/
theorem Follows.enter {part last : Section} {decoder : Decoder α} {layout : Layout}
    {result : Except Failure α} (follows : Follows part last decoder layout result)
    (start : Section) : Follows start last (do Decoder.enter part; decoder) layout result where
  complete := follows.complete
  cut := follows.cut

end Decoder

/-! ## Bytes that are too many or too few -/

variable {α : Type}

/-- The bytes are not taken with anything behind them. -/
def RefusesMore (decode : Bytes → Except Failure α) (bytes : Bytes) : Prop :=
  ∀ suffix, suffix ≠ [] → ∃ failure, decode (bytes ++ suffix) = .error failure

/-- A proper part of the bytes, from their front, is refused as a breach of protocol in the section
of the first byte that is missing. -/
def RefusesLess (decode : Bytes → Except Failure α) (layout : Layout) : Prop :=
  ∀ position < layout.bytes.length, ∃ part, layout.sectionAt position = some part ∧
    ∃ fault, decode (layout.bytes.take position) = .error (.protocol part fault)

namespace Decoder

/-- A decoder that, on some bytes and whatever stands behind them, leaves just that. -/
def Delimits (decoder : Decoder α) (bytes : Bytes) : Prop :=
  ∀ back start value rest, decoder ⟨bytes ++ back, start⟩ = .ok value rest → rest.bytes = back

/-- A decoder that follows a layout in whatever section it starts takes the bytes of the layout if
it gives a value. -/
theorem Follows.delimits {decoder : Decoder α} {layout : Layout} {result : Except Failure α}
    (follows : ∀ start, ∃ last, Follows start last decoder layout result) :
    decoder.Delimits layout.bytes := by
  intro back start value rest read
  obtain ⟨last, followed⟩ := follows start
  have ended := followed.complete back
  rw [read] at ended
  cases result with
  | ok expected =>
    cases ended
    rfl
  | error failure =>
    obtain ⟨_, ended⟩ := ended
    cases ended

/-- What comes before takes its own bytes. -/
theorem Takes.delimits {β : Type} {decoder : Decoder α} {f : α → Decoder β} {first second : Bytes}
    {a : α} (front : Takes decoder first a) (back : (f a).Delimits second) :
    Delimits (decoder >>= f) (first ++ second) := by
  intro behind start value rest read
  obtain ⟨middle, taken⟩ := front (second ++ behind) start
  rw [List.append_assoc] at read
  simp only [Bind.bind, EStateM.bind, taken] at read
  exact back behind middle value rest read

/-- What is made of a value takes no more bytes. -/
theorem Delimits.map {β : Type} {decoder : Decoder α} {bytes : Bytes} (make : α → β)
    (delimits : decoder.Delimits bytes) : Delimits (do return make (← decoder)) bytes := by
  intro back start value rest read
  obtain ⟨a, _, taken, made⟩ := bind_eq_ok read
  cases made
  exact delimits back start a _ taken

/-- Values of one kind leave what stands behind the last one, whatever the values are. -/
theorem delimits_repeated {decoder : Decoder α} {pieces : List Bytes}
    (each : ∀ bytes ∈ pieces, decoder.Delimits bytes) :
    (repeated decoder pieces.length).Delimits pieces.flatten := by
  induction pieces with
  | nil =>
    intro back start value rest read
    cases read
    rfl
  | cons bytes others inductionHypothesis =>
    intro back start values rest read
    obtain ⟨first, ⟨left, part⟩, firstRead, read⟩ := bind_eq_ok read
    obtain ⟨values, last, othersRead, made⟩ := bind_eq_ok read
    cases made
    rw [List.flatten_cons, List.append_assoc] at firstRead
    obtain rfl : left = others.flatten ++ back :=
      each bytes List.mem_cons_self _ _ first _ firstRead
    exact inductionHypothesis (fun other member => each other (List.mem_cons_of_mem bytes member))
      back part values _ othersRead

/-- A value of its own length is not read from more bytes as a whole. -/
theorem Delimits.refusesMore {decoder : Decoder α} {bytes : Bytes} (delimits : decoder.Delimits bytes)
    (leftOver : Nat → ProtocolFault) : RefusesMore (decoder.whole leftOver) bytes := by
  intro suffix more
  unfold whole
  cases read : decoder (.ofBytes (bytes ++ suffix)) with
  | error failure rest => exact ⟨failure, rfl⟩
  | ok value rest =>
    have left := delimits suffix _ value rest read
    have nonempty : rest.bytes.isEmpty = false := by
      rw [left]
      simpa using more
    simp [nonempty]

/-- A decoder that follows a layout refuses a part of it. -/
theorem Follows.refusesLess {last : Section} {decoder : Decoder α} {layout : Layout}
    {result : Except Failure α} (follows : Follows .state last decoder layout result)
    (leftOver : Nat → ProtocolFault) : RefusesLess (decoder.whole leftOver) layout := by
  intro position short
  obtain ⟨part, found, fault, rest, failed⟩ := follows.cut position short
  exact ⟨part, found, fault, by simp only [whole, Input.ofBytes, failed]⟩

end Decoder

end SignalAccess

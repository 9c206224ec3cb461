import SignalAccess.Proofs.Data.Block
import SignalAccess.Proofs.Wire.Written
import SignalAccess.Proofs.Wire.Yield

/-!
# Writing again what was read

A reader takes headers as they come: a truth value may be any word, a flag for errors below may stand
where there are no errors, fields of a compressed form may be filled in where none is used. What it
makes of them passes every check of the writer nevertheless, so a block that was read can be written
again at every version that knows all types, and the new bytes are read as the same block.

Each part has a predicate that says what the reader gives and that is all the writer needs: the part
is without fault, its counts fit their words, and its texts keep to their limits.
-/

namespace SignalAccess

open Encoding Decoder

/-! ## Elements and error bars -/

namespace Elements

variable {part : Section}

/-- Elements that are read are of the announced type and number. -/
theorem yields_decode (type : ElementType) (count : Nat) :
    (decode type count).Yields fun elements => elements.areOf type count = true := by
  cases type
  case flat type =>
    refine (yields_words type.width count).map fun words length => ?_
    simpa [areOf, elementType, Elements.count] using length.1
  all_goals exact yields_refuse _

/-- The number of elements that are read was a word. -/
theorem yields_fits (type : ElementType) (count : Nat) :
    (decode type count).Yields (·.count < UInt32.size) := by
  cases type
  case flat type =>
    refine (yields_words type.width count).map fun words length => ?_
    exact Nat.lt_of_le_of_lt (Nat.le_of_eq length.1) length.2
  all_goals exact yields_refuse _

/-- Elements can be written if their number fits. -/
theorem isWritten {elements : Elements} (fits : elements.count < UInt32.size) :
    (elements.encode part).IsWritten := isWritten_words fits

end Elements

namespace ErrorBars

variable {part : Section} {bars : ErrorBars} {count : Nat}

/-- Error bars for a number of values that can be written with their header. -/
structure Writable (bars : ErrorBars) (count : Nat) : Prop where
  sound : bars.fault? count = none
  parameters : bars.parameters.length < UInt32.size
  counted : count < UInt32.size

/-- Error bars that are read are without fault, whatever the header says of asymmetry: where there
are no errors above, the flag for errors below is of no concern. -/
theorem yields_decode (header : Header) (counted : count < UInt32.size) :
    (decode header count).Yields (·.Writable count) := by
  have row : (if header.parameterCount = 0 then pure []
      else Decoder.words 4 header.parameterCount).Yields fun words => words.length < UInt32.size := by
    refine Yields.ite (fun _ => yields_pure (by simp)) fun _ => ?_
    exact (yields_words 4 header.parameterCount).mono fun words length => length.1 ▸ length.2
  refine row.bind_ite fun words length => ?_
  have kept : (words.map fun word => (⟨⟨word⟩⟩ : Binary32)).length < UInt32.size := by
    simpa using length
  refine Yields.ite (fun _ => yields_pure ⟨rfl, kept, counted⟩) fun _ => ?_
  refine (Elements.yields_decode header.type count).bind fun upper above => ?_
  obtain ⟨typed, enough⟩ := Elements.eq_of_areOf above
  refine Yields.ite (fun _ => ?_) fun _ => ?_
  · refine (Elements.yields_decode header.type count).map fun lower below => ?_
    exact ⟨by simp [fault?, enough, typed, below], kept, counted⟩
  · exact yields_pure ⟨by simp [fault?, enough], kept, counted⟩

/-- The header of error bars can be written if the number of parameters fits. -/
theorem Header.isWritten {header : Header} (fits : header.parameterCount < UInt32.size) :
    (header.encode part).IsWritten :=
  isWritten_joined_cons (isWritten_int32 _) <| isWritten_joined_cons (isWritten_int32 _) <|
    isWritten_joined_cons (isWritten_truth _) <| isWritten_joined_cons (isWritten_count fits) <|
      isWritten_ok []

/-- The errors above and below are as many as the values, so their numbers fit as well. -/
theorem Writable.isWritten (writable : bars.Writable count) : (bars.encode part).IsWritten := by
  obtain ⟨model, parameters, upper, lower⟩ := bars
  obtain ⟨sound, few, counted⟩ := writable
  have parametersWritten : (if parameters.isEmpty then .ok []
      else words part 4 (parameters.map (·.bits.toBitVec))).IsWritten := by
    split
    · exact isWritten_ok []
    · exact isWritten_words (by simpa using few)
  refine isWritten_joined_cons parametersWritten ?_
  cases upper with
  | none =>
    cases lower with
    | none =>
      exact isWritten_joined_cons (isWritten_ok [])
        (isWritten_joined_cons (isWritten_ok []) (isWritten_ok []))
    | some lower => cases sound
  | some upper =>
    obtain ⟨enough, sides⟩ := sides_of_sound sound
    refine isWritten_joined_cons (Elements.isWritten (enough ▸ counted)) ?_
    cases lower with
    | none => exact isWritten_joined_cons (isWritten_ok []) (isWritten_ok [])
    | some lower =>
      have below := (Elements.eq_of_areOf (sides lower rfl)).2
      exact isWritten_joined_cons (Elements.isWritten (below ▸ counted)) (isWritten_ok [])

/-- The header of error bars that can be written can be written too. -/
theorem Writable.isWritten_header (writable : bars.Writable count) :
    (bars.header.encode part).IsWritten :=
  Header.isWritten writable.parameters

end ErrorBars

/-! ## Axes -/

namespace Axis

variable {part : Section}

/-- Sound axes pass the check of an axis. -/
theorem Sound.fault?_eq_none {axis : Axis} (sound : axis.Sound) : axis.fault? = none := by
  have simple : (axis.coordinates.isCompressed && axis.type.isComplex) = false := by
    cases compressed : axis.coordinates.isCompressed with
    | false => rfl
    | true => exact sound.simple compressed
  have typed : axis.coordinates.arrays.find? (·.elementType != axis.type) = none := by
    apply List.find?_eq_none.mpr
    intro array listed
    simp [sound.typed array listed]
  simp [fault?, simple, typed, sound.counted, sound.errors]

/-- A header of an axis as it can be read. -/
structure Header.Readable (header : Header) : Prop where
  faultless : header.fault? = none
  count : header.count < UInt32.size
  terms : header.terms < UInt32.size
  units : header.units.byteLength ≤ Limit.field
  label : header.label.byteLength ≤ Limit.field

/-- A header that is read is one that can be read. -/
theorem Header.yields_decode : Header.decode.Yields Readable := by
  refine Yields.behind fun type => Yields.behind fun errors => ?_
  refine yields_count.bind fun count counted => Yields.behind fun compressed => ?_
  refine Yields.behind fun start => Yields.behind fun step => Yields.behind fun method => ?_
  refine yields_count.bind fun terms termsFit => ?_
  refine (yields_text Limit.field).bind fun units unitsFit => ?_
  refine (yields_text Limit.field).bind fun label labelFits => ?_
  dsimp only
  split
  · exact yields_refuse _
  · next faultless => exact yields_pure ⟨faultless, counted, termsFit, unitsFit, labelFits⟩

/-- Coordinates as they can be read behind a header. -/
structure Header.Admits (header : Header) (coordinates : Coordinates) : Prop where
  compressed : coordinates.isCompressed = header.compressed
  typed : ∀ array ∈ coordinates.arrays, array.elementType = header.type
  counted : coordinates.countFault? header.count = none
  terms : coordinates.terms < UInt32.size

/-- Coordinates that are read are those that their header admits, in each of their forms. -/
theorem Header.yields_coordinates {header : Header} (readable : header.Readable) :
    header.coordinates.Yields header.Admits := by
  refine Yields.ite (fun listed => ?_) fun compressed => ?_
  · refine (Elements.yields_decode header.type header.count).map fun values announced => ?_
    obtain ⟨typed, counted⟩ := Elements.eq_of_areOf announced
    constructor
    · have plain : header.compressed = false := by simpa using listed
      exact plain.symm
    · simpa [Coordinates.arrays] using typed
    · simp [Coordinates.countFault?, counted]
    · exact Nat.two_pow_pos 32
  · have isCompressed : header.compressed = true := by simpa using compressed
    refine Yields.ite (fun _ => yields_pure ?_) fun _ => Yields.ite (fun _ => ?_) fun _ =>
      Yields.ite (fun _ => ?_) fun _ => ?_
    · constructor
      · exact isCompressed.symm
      · simp [Coordinates.arrays]
      · rfl
      · exact Nat.two_pow_pos 32
    · refine (yields_words 4 header.terms).bind fun lengths counted => ?_
      refine (Elements.yields_decode header.type header.terms).bind fun starts startsAnnounced => ?_
      refine (Elements.yields_decode header.type header.terms).map fun steps stepsAnnounced => ?_
      obtain ⟨startsTyped, startsCounted⟩ := Elements.eq_of_areOf startsAnnounced
      obtain ⟨stepsTyped, stepsCounted⟩ := Elements.eq_of_areOf stepsAnnounced
      constructor
      · simp [Coordinates.isCompressed, isCompressed]
      · simp [Coordinates.arrays, startsTyped, stepsTyped]
      · simp [Coordinates.countFault?, startsCounted, stepsCounted, counted.1]
      · simpa only [Coordinates.terms, List.length_map, counted.1] using counted.2
    · refine (Elements.yields_decode header.type header.terms).map fun values announced => ?_
      obtain ⟨typed, counted⟩ := Elements.eq_of_areOf announced
      constructor
      · simp [Coordinates.isCompressed, isCompressed]
      · simpa [Coordinates.arrays] using typed
      · simp [Coordinates.countFault?]
      · simpa [Coordinates.terms, counted] using readable.terms
    · refine (Elements.yields_decode header.type 1).bind fun start startAnnounced => ?_
      refine (Elements.yields_decode header.type 1).map fun step stepAnnounced => ?_
      obtain ⟨startTyped, startCounted⟩ := Elements.eq_of_areOf startAnnounced
      obtain ⟨stepTyped, stepCounted⟩ := Elements.eq_of_areOf stepAnnounced
      constructor
      · simp [Coordinates.isCompressed, isCompressed]
      · simp [Coordinates.arrays, startTyped, stepTyped]
      · simp [Coordinates.countFault?, startCounted, stepCounted]
      · exact UInt32.toNat_lt _

/-- An axis that can be written. -/
structure Writable (axis : Axis) : Prop where
  sound : axis.Sound
  errors : axis.errors.Writable axis.count
  terms : axis.coordinates.terms < UInt32.size
  units : axis.units.byteLength ≤ Limit.field
  label : axis.label.byteLength ≤ Limit.field

/-- An axis that is put together from what was read can be written. The header has been checked for
compressed complex coordinates, so the axis passes the same check. -/
theorem Header.yields_complete {header : Header} {coordinates : Coordinates}
    (readable : header.Readable) (admitted : header.Admits coordinates) :
    (header.complete coordinates).Yields Writable := by
  refine (ErrorBars.yields_decode header.errors readable.count).map fun errors writable => ?_
  have simple : coordinates.isCompressed = true → header.type.isComplex = false := by
    rw [admitted.compressed]
    intro compressed
    have faultless := readable.faultless
    by_contra complex
    have isComplex : header.type.isComplex = true := by simpa using complex
    simp [fault?, compressed, isComplex] at faultless
  exact {
    sound := ⟨simple, admitted.typed, admitted.counted, writable.sound⟩
    errors := writable
    terms := admitted.terms
    units := readable.units
    label := readable.label }

/-- The axes of a block that are read can be written, and are as many as the block's header says. -/
theorem yields_decodeAll (rank : Nat) :
    (decodeAll rank).Yields fun axes => axes.length = rank ∧ ∀ axis ∈ axes, axis.Writable := by
  refine (yields_repeated Header.yields_decode rank).bind fun headers readable => ?_
  refine (yields_forEach fun header member =>
    Header.yields_coordinates (readable.2 header member)).bind fun coordinates admitted => ?_
  have each : ∀ pair ∈ headers.zip coordinates, (pair.1.complete pair.2).Yields Writable := by
    rintro ⟨header, coordinates⟩ member
    exact Header.yields_complete (readable.2 header (List.of_mem_zip member).1)
      (List.forall₂_zip admitted member)
  refine (yields_forEach_all each).mono fun axes all => ⟨?_, all.2⟩
  rw [all.1, List.length_zip, ← admitted.length_eq, readable.1, Nat.min_self]

namespace Writable

variable {axis : Axis} (writable : axis.Writable)

include writable

/-- The header of an axis that can be written can be written too. -/
theorem isWritten_header : (axis.header.encode part).IsWritten := by
  have texts {t : Text} (within : t.byteLength ≤ Limit.field) :
      (text part Limit.field t).IsWritten := isWritten_text within Limit.field_lt
  rw [Header.encode, isWritten_joined_iff]
  simp only [List.mem_cons, List.not_mem_nil, or_false, forall_eq_or_imp, forall_eq]
  exact ⟨isWritten_int32 _, writable.errors.isWritten_header, isWritten_count writable.errors.counted,
    isWritten_truth _, isWritten_float64 _, isWritten_float64 _, isWritten_int32 _,
    isWritten_count writable.terms, texts writable.units, texts writable.label⟩

/-- Each array of the coordinates has a number of elements that is a count of the header, or one. -/
theorem isWritten_coordinates : (axis.coordinates.encode part).IsWritten := by
  obtain ⟨type, count, coordinates, errors, units, label⟩ := axis
  obtain ⟨⟨-, -, counted, -⟩, ⟨-, -, few⟩, terms, -, -⟩ := writable
  dsimp only at counted few terms
  cases coordinates with
  | literal values =>
    have enough : values.count = count := by simpa [Coordinates.countFault?] using counted
    exact Elements.isWritten (enough ▸ few)
  | linear start step => exact isWritten_ok []
  | runs lengths starts steps =>
    obtain ⟨startsEnough, stepsEnough⟩ :
        starts.count = lengths.length ∧ steps.count = lengths.length := by
      simpa [Coordinates.countFault?] using counted
    apply isWritten_joined_cons (isWritten_words (by simpa [Coordinates.terms] using terms))
    apply isWritten_joined_cons (Elements.isWritten (startsEnough ▸ terms))
    exact isWritten_joined_cons (Elements.isWritten (stepsEnough ▸ terms)) (isWritten_ok [])
  | offsets values => exact Elements.isWritten terms
  | sequence length start step =>
    obtain ⟨startAlone, stepAlone⟩ : start.count = 1 ∧ step.count = 1 := by
      simpa [Coordinates.countFault?] using counted
    apply isWritten_joined_cons (Elements.isWritten (by rw [startAlone]; decide))
    exact isWritten_joined_cons (Elements.isWritten (by rw [stepAlone]; decide)) (isWritten_ok [])

end Writable

/-- Axes that can be written one by one can be written in their three rounds. -/
theorem isWritten_encodeAll {axes : List Axis} (all : ∀ axis ∈ axes, axis.Writable) :
    (encodeAll part axes).IsWritten := by
  apply isWritten_joined_cons
  · exact isWritten_joined_map fun axis member =>
      isWritten_checked (all axis member).sound.fault?_eq_none (all axis member).isWritten_header
  apply isWritten_joined_cons
  · exact isWritten_joined_map fun axis member => (all axis member).isWritten_coordinates
  apply isWritten_joined_cons
  · exact isWritten_joined_map fun axis member => (all axis member).errors.isWritten
  · exact isWritten_ok []

end Axis

end SignalAccess

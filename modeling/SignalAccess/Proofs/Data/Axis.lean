import SignalAccess.Data.Axis
import SignalAccess.Proofs.Wire.ReadBack

/-!
# Reading back elements, error bars and axes

Elements are read back under the type and number that a header announces. Error bars and axes travel
behind headers that follow from them: what the reader learns from the header is exactly what the
writer took from the value. Error bars without fault for a number of values have that many errors on
each side, and coordinates without fault are of the axis's type and number.
-/

namespace SignalAccess

open Encoding

namespace Elements

/-- Elements are read back under their type and number, no elements included. -/
theorem readBack (part : Section) {elements : Elements} {type : ElementType} {count : Nat}
    (typed : elements.elementType = type) (counted : elements.count = count) :
    ReadBack (elements.encode part) (decode type count) elements := by
  subst typed counted
  exact (readBack_words part elements.words).map (Elements.mk elements.type)

/-- Elements that are as announced have the announced type and number. -/
theorem eq_of_areOf {elements : Elements} {type : ElementType} {count : Nat}
    (announced : elements.areOf type count = true) :
    elements.elementType = type ∧ elements.count = count := by
  simpa [areOf] using announced

end Elements

namespace ErrorBars

/-- Every header of error bars is read back. -/
theorem Header.readBack (part : Section) (header : Header) :
    ReadBack (header.encode part) Header.decode header :=
  (readBack_elementType header.type).cons <|
    (readBack_int32 header.model).cons <|
      (readBack_truth header.asymmetric).cons <|
        ((readBack_count part header.parameterCount).map
          (Header.mk header.type header.model header.asymmetric)).single

/-- The parameters of error bars. When there are none nothing is written, and nothing is read. -/
theorem readBack_parameters (part : Section) (parameters : List Binary32) :
    ReadBack
      (if parameters.isEmpty then .ok []
        else .words part 4 (parameters.map (·.bits.toBitVec)))
      (if parameters.length = 0 then pure [] else Decoder.words 4 parameters.length)
      (parameters.map (·.bits.toBitVec)) := by
  cases parameters with
  | nil => exact readBack_nil []
  | cons first others =>
    have read := @readBack_words part 4 ((first :: others).map (·.bits.toBitVec))
    rw [List.length_map] at read
    exact read

/-- Error bars without fault have as many errors above as there are values, and the errors below, if
there are any, are of the same type and number. -/
theorem sides_of_sound {model : Int32} {parameters : List Binary32} {upper : Elements}
    {lower : Option Elements} {count : Nat}
    (sound : fault? ⟨model, parameters, some upper, lower⟩ count = none) :
    upper.count = count ∧
      ∀ errors, lower = some errors → errors.areOf upper.elementType count = true := by
  by_cases enough : upper.count = count
  · by_cases matching : lower.all (·.areOf upper.elementType count) = true
    · refine ⟨enough, ?_⟩
      rintro errors rfl
      exact matching
    · simp [fault?, enough, matching] at sound
  · simp [fault?, enough] at sound

/-- Error bars without fault for a number of values are read back behind their header.

The type of the errors above is never that of absent errors, so the header tells whether there are
any; and whether there are errors below is a field of its own. -/
theorem readBack (part : Section) (bars : ErrorBars) {count : Nat}
    (sound : bars.fault? count = none) :
    ReadBack (bars.encode part) (decode bars.header count) bars := by
  obtain ⟨model, parameters, upper, lower⟩ := bars
  have again : (parameters.map (·.bits.toBitVec)).map (fun word => (⟨⟨word⟩⟩ : Binary32)) =
      parameters := by
    simp [Function.comp_def]
  refine (readBack_parameters part parameters).cons_ite ?_
  dsimp only [header, type, isAsymmetric]
  rw [again]
  cases upper with
  | none =>
    cases lower with
    | none => exact readBack_nil _
    | some lower => cases sound
  | some upper =>
    obtain ⟨enough, sides⟩ := sides_of_sound sound
    refine (Elements.readBack part rfl enough).cons ?_
    cases lower with
    | none => exact readBack_nil _
    | some lower =>
      obtain ⟨typed, counted⟩ := Elements.eq_of_areOf (sides lower rfl)
      have below := Elements.readBack part typed counted
      exact (below.map fun errors => ErrorBars.mk model parameters (some upper) (some errors)).single

end ErrorBars

namespace Axis

/-- What an axis without fault is: its arrays are of its type and number, its errors are without
fault for its number of coordinates, and no complex axis is compressed. -/
structure Sound (axis : Axis) : Prop where
  simple : axis.coordinates.isCompressed = true → axis.type.isComplex = false
  typed : ∀ array ∈ axis.coordinates.arrays, array.elementType = axis.type
  counted : axis.coordinates.countFault? axis.count = none
  errors : axis.errors.fault? axis.count = none

/-- The check of an axis finds no fault only in sound ones. -/
theorem sound_of_fault? {axis : Axis} (faultless : axis.fault? = none) : axis.Sound := by
  unfold fault? at faultless
  split at faultless
  · cases faultless
  · next simple =>
    split at faultless
    · cases faultless
    · next typed =>
      obtain ⟨counted, errors⟩ : axis.coordinates.countFault? axis.count = none ∧
          axis.errors.fault? axis.count = none := by
        simpa using faultless
      refine ⟨?_, ?_, counted, errors⟩
      · intro compressed
        simpa [compressed] using simple
      · intro array listed
        simpa using List.find?_eq_none.mp typed array listed

/-- The header of a sound axis has no fault: the compressed forms have the numbers that the reader
knows. -/
theorem Sound.header {axis : Axis} (sound : axis.Sound) : axis.header.fault? = none := by
  have simple : (axis.coordinates.isCompressed && axis.type.isComplex) = false := by
    cases compressed : axis.coordinates.isCompressed with
    | false => rfl
    | true => exact sound.simple compressed
  have known : 0 ≤ axis.coordinates.method ∧ axis.coordinates.method ≤ 3 := by
    cases axis.coordinates <;> simp only [Coordinates.method] <;> decide
  simp [Header.fault?, Axis.header, simple, known]

/-- A header without fault is read back. -/
theorem Header.readBack (part : Section) {header : Header} (faultless : header.fault? = none) :
    ReadBack (header.encode part) Header.decode header := by
  refine (readBack_elementType header.type).cons <|
    (ErrorBars.Header.readBack part header.errors).cons <|
    (readBack_count part header.count).cons <|
    (readBack_truth header.compressed).cons <|
    (readBack_float64 header.start).cons <|
    (readBack_float64 header.step).cons <|
    (readBack_int32 header.method).cons <|
    (readBack_count part header.terms).cons <|
    (readBack_text part Limit.field header.units).cons <|
    (readBack_text part Limit.field header.label).cons ?_
  dsimp only
  rw [faultless]
  exact readBack_nil header

/-- The coordinates of a sound axis are read back behind its header, in each of their forms. -/
theorem Sound.readBack_coordinates (part : Section) {axis : Axis} (sound : axis.Sound) :
    ReadBack (axis.coordinates.encode part) axis.header.coordinates axis.coordinates := by
  obtain ⟨type, count, coordinates, errors, units, label⟩ := axis
  obtain ⟨-, typed, counted, -⟩ := sound
  dsimp only at typed counted
  cases coordinates with
  | literal values =>
    have enough : values.count = count := by simpa [Coordinates.countFault?] using counted
    have all := typed values (List.mem_singleton.mpr rfl)
    exact (Elements.readBack part all enough).map Coordinates.literal
  | linear start step => exact readBack_nil _
  | runs lengths starts steps =>
    obtain ⟨startsEnough, stepsEnough⟩ :
        starts.count = lengths.length ∧ steps.count = lengths.length := by
      simpa [Coordinates.countFault?] using counted
    have startsTyped := typed starts (by simp [Coordinates.arrays])
    have stepsTyped := typed steps (by simp [Coordinates.arrays])
    have read := @readBack_words part 4 (lengths.map (·.toBitVec))
    rw [List.length_map] at read
    refine read.cons <| (Elements.readBack part startsTyped startsEnough).cons ?_
    have again : (lengths.map (·.toBitVec)).map (fun word => (⟨⟨word⟩⟩ : Int32)) = lengths := by
      simp [Function.comp_def]
    dsimp only
    rw [again]
    exact ((Elements.readBack part stepsTyped stepsEnough).map
      (Coordinates.runs lengths starts)).single
  | offsets values =>
    have all := typed values (List.mem_singleton.mpr rfl)
    exact (Elements.readBack part all rfl).map Coordinates.offsets
  | sequence length start step =>
    obtain ⟨startAlone, stepAlone⟩ : start.count = 1 ∧ step.count = 1 := by
      simpa [Coordinates.countFault?] using counted
    have startTyped := typed start (by simp [Coordinates.arrays])
    have stepTyped := typed step (by simp [Coordinates.arrays])
    refine (Elements.readBack part startTyped startAlone).cons ?_
    have again : UInt32.ofNat length.toNat = length := UInt32.ofNat_toNat
    dsimp only [Axis.header, Coordinates.terms]
    rw [again]
    exact ((Elements.readBack part stepTyped stepAlone).map
      (Coordinates.sequence length start)).single

/-- A sound axis is put together again when its errors are read. -/
theorem Sound.readBack_errors (part : Section) {axis : Axis} (sound : axis.Sound) :
    ReadBack (axis.errors.encode part) (axis.header.complete axis.coordinates) axis := by
  have read := (ErrorBars.readBack part axis.errors sound.errors).map fun errors =>
    Axis.mk axis.type axis.count axis.coordinates errors axis.units axis.label
  exact read

/-- The axes of a block are read back in their three rounds: all headers, all coordinates, all errors.
Only sound axes are written, and each round is told what the rounds in front of it have read. -/
theorem readBack_all (part : Section) (axes : List Axis) :
    ReadBack (encodeAll part axes) (decodeAll axes.length) axes := by
  apply ReadBack.of_written
  intro bytes written
  obtain ⟨headers, -, headersWritten, -, -⟩ := joined_cons_eq_ok written
  have sound : ∀ axis ∈ axes, axis.Sound := by
    intro axis member
    obtain ⟨header, headerWritten⟩ := written_of_joined headersWritten _
      (List.mem_map_of_mem member)
    exact sound_of_fault? (faultless_of_checked headerWritten).1
  have first := readBack_repeated (fun axis => .checked part axis.fault? (axis.header.encode part))
    Header.decode header axes fun axis member =>
      readBack_checked fun _ => Header.readBack part (sound axis member).header
  have second := readBack_forEach (·.coordinates.encode part) Header.coordinates header
    Axis.coordinates axes fun axis member => (sound axis member).readBack_coordinates part
  have third := readBack_forEach (·.errors.encode part)
    (fun pair => pair.1.complete pair.2)
    (fun axis => (axis.header, axis.coordinates)) id axes
    fun axis member => (sound axis member).readBack_errors part
  rw [List.map_id] at third
  refine first.cons (second.cons ?_)
  rw [List.zip_map']
  exact third.single

end Axis

end SignalAccess

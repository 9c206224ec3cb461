import SignalAccess.Proofs.Data.Axis
import SignalAccess.Proofs.Data.Reconstruction
import SignalAccess.Proofs.Wire.Written

/-!
# How many coordinates an axis has

An axis declares a number of coordinates, and its form stands for a number of its own: the elements
that are listed, the lengths of the runs, the length of the sequence. Before an axis is written the
two are compared for listed coordinates only; when it is rebuilt they are compared for every
compressed form. What is established here is that nothing else keeps an axis of numbers that can be
written from being rebuilt: it comes back with as many coordinates as it declares if its form stands
for as many, and is refused if not. A line takes its number from the declaration, so axes that are
listed or lie on a line always come back.
-/

namespace SignalAccess

namespace Coordinates

/-- The number of coordinates that a form stands for, where so many are declared. A run of negative
length is empty. -/
def extent (declared : Nat) : Coordinates → Nat
  | .literal values | .offsets values => values.count
  | .linear .. => declared
  | .runs lengths _ _ => (lengths.map fun length => length.toInt.toNat).sum
  | .sequence length _ _ => length.toNat

/-- Coordinates that are not compressed are listed. -/
theorem exists_literal {coordinates : Coordinates} (listed : ¬coordinates.isCompressed = true) :
    ∃ values, coordinates = .literal values := by
  cases coordinates with
  | literal values => exact ⟨values, rfl⟩
  | linear start step => exact absurd rfl listed
  | runs lengths starts steps => exact absurd rfl listed
  | offsets values => exact absurd rfl listed
  | sequence length start step => exact absurd rfl listed

end Coordinates

variable {part : Section} {axis : Axis} {type : FlatType}

/-- Elements of a numeric type have a number each. -/
theorem Elements.exists_numbers {values : Elements} (numeric : values.type.isNumeric = true) :
    ∃ numbers, values.numbers? = some numbers ∧ numbers.length = values.count :=
  ⟨values.words.map values.type.toBinary64, if_pos numeric, List.length_map _⟩

/-- One run for each length, if there are as many terms as lengths. -/
theorem Coordinates.length_flatMap_runs {lengths : List Int32} {terms : List (Binary64 × Binary64)}
    (counted : terms.length = lengths.length) :
    ((lengths.zip terms).flatMap fun (length, start, step) =>
      arithmeticRun length.toInt.toNat start step).length =
        (lengths.map fun length => length.toInt.toNat).sum := by
  have lengthsAlone : (lengths.zip terms).map Prod.fst = lengths :=
    List.map_fst_zip (Nat.le_of_eq counted.symm)
  rw [List.length_flatMap]
  conv_rhs => rw [← lengthsAlone, List.map_map]
  refine congrArg List.sum (List.map_congr_left fun (length, start, step) _ => ?_)
  exact length_arithmeticRun _ start step

namespace Axis

/-- The arrays of a sound axis of numbers are numeric. -/
theorem Sound.numeric {values : Elements} (sound : axis.Sound) (typed : axis.type = .flat type)
    (numeric : type.isNumeric = true) (listed : values ∈ axis.coordinates.arrays) :
    values.type.isNumeric = true := by
  have same : ElementType.flat values.type = .flat type := (sound.typed values listed).trans typed
  cases same
  exact numeric

/-- The numbers of a compressed axis that can be written are computed, and are as many as its form
stands for. Each form has the terms that its computation takes. -/
theorem Sound.exists_rebuild (sound : axis.Sound) (typed : axis.type = .flat type)
    (numeric : type.isNumeric = true) (compressed : axis.coordinates.isCompressed = true) :
    ∃ numbers, axis.coordinates.rebuild axis.count = .ok numbers ∧
      numbers.length = axis.coordinates.extent axis.count := by
  have known : ∀ values ∈ axis.coordinates.arrays,
      ∃ numbers, values.numbers? = some numbers ∧ numbers.length = values.count :=
    fun values listed => Elements.exists_numbers (sound.numeric typed numeric listed)
  have counted := sound.counted
  cases form : axis.coordinates with
  | literal values =>
    rw [form] at compressed
    cases compressed
  | linear start step =>
    exact ⟨_, rfl, Coordinates.length_accumulate step axis.count start⟩
  | runs lengths starts steps =>
    rw [form] at known counted
    obtain ⟨startNumbers, startsKnown, startsLength⟩ := known starts (by simp [Coordinates.arrays])
    obtain ⟨stepNumbers, stepsKnown, stepsLength⟩ := known steps (by simp [Coordinates.arrays])
    obtain ⟨startsEnough, stepsEnough⟩ :
        starts.count = lengths.length ∧ steps.count = lengths.length := by
      simpa [Coordinates.countFault?] using counted
    have terms : (startNumbers.zip stepNumbers).length = lengths.length := by
      rw [List.length_zip, startsLength, stepsLength, startsEnough, stepsEnough, Nat.min_self]
    refine ⟨_, ?_, Coordinates.length_flatMap_runs terms⟩
    rw [Coordinates.rebuild, startsKnown, stepsKnown]
  | offsets values =>
    rw [form] at known
    obtain ⟨numbers, valuesKnown, length⟩ := known values (by simp [Coordinates.arrays])
    exact ⟨numbers, by rw [Coordinates.rebuild, valuesKnown], length⟩
  | sequence length start step =>
    rw [form] at known counted
    obtain ⟨startNumbers, startKnown, startLength⟩ := known start (by simp [Coordinates.arrays])
    obtain ⟨stepNumbers, stepKnown, stepLength⟩ := known step (by simp [Coordinates.arrays])
    obtain ⟨startAlone, stepAlone⟩ : start.count = 1 ∧ step.count = 1 := by
      simpa [Coordinates.countFault?] using counted
    obtain ⟨first, rfl⟩ := List.length_eq_one_iff.mp (startLength.trans startAlone)
    obtain ⟨distance, rfl⟩ := List.length_eq_one_iff.mp (stepLength.trans stepAlone)
    refine ⟨_, ?_, Coordinates.length_arithmeticRun length.toNat first distance⟩
    rw [Coordinates.rebuild, startKnown, stepKnown]

/-- The number of coordinates that are listed is checked, and a line takes its number from the axis. -/
theorem Sound.extent_of_method (sound : axis.Sound) (regular : axis.coordinates.method = 0) :
    axis.coordinates.extent axis.count = axis.count := by
  have counted := sound.counted
  cases form : axis.coordinates with
  | literal values =>
    rw [form] at counted
    simpa [Coordinates.countFault?, Coordinates.extent] using counted
  | linear start step => rfl
  | runs lengths starts steps =>
    rw [form] at regular
    cases regular
  | offsets values =>
    rw [form] at regular
    cases regular
  | sequence length start step =>
    rw [form] at regular
    cases regular

/-- As many numbers as are declared become coordinates of the axis's type. -/
theorem exists_elements_of_rebuild {numbers : List Binary64} (typed : axis.type = .flat type)
    (numeric : type.isNumeric = true) (compressed : axis.coordinates.isCompressed = true)
    (rebuilt : axis.coordinates.rebuild axis.count = .ok numbers)
    (counted : numbers.length = axis.count) :
    ∃ values, axis.elements = .ok values ∧ values.type = type ∧ values.count = axis.count := by
  have made : ofNumbers axis.type axis.count numbers = .ok ⟨type, numbers.map type.ofBinary64⟩ := by
    rw [typed, ofNumbers, if_neg (not_not_intro counted)]
    exact if_pos numeric
  refine ⟨⟨type, numbers.map type.ofBinary64⟩, ?_, rfl, ?_⟩
  · rw [elements_of_rebuild compressed rebuilt, made]
    rfl
  · exact (List.length_map _).trans counted

/-- Listed coordinates come back as they are. -/
theorem elements_of_literal {values : Elements} (listed : axis.coordinates = .literal values) :
    axis.elements = .ok values := by
  rw [elements, listed]

/-- The header of an axis passes the check in front of it, and can be written. -/
def Accepted (part : Section) (axis : Axis) : Prop :=
  (Encoding.checked part axis.fault? (axis.header.encode part)).IsWritten

/-- An axis is accepted only if it is sound. -/
theorem Accepted.sound (accepted : axis.Accepted part) : axis.Sound := by
  obtain ⟨bytes, written⟩ := accepted
  exact sound_of_fault? (Encoding.faultless_of_checked written).1

end Axis

/-- An axis of numbers whose header can be written is rebuilt with as many coordinates as it declares
if its form stands for as many, and is refused otherwise. An axis that is listed or lies on a line
always stands for as many. -/
theorem elements_of_accepted (numeric : type.isNumeric = true) (typed : axis.type = .flat type)
    (accepted : axis.Accepted part) :
    (axis.coordinates.extent axis.count = axis.count →
      ∃ values, axis.elements = .ok values ∧ values.type = type ∧ values.count = axis.count) ∧
    (axis.coordinates.extent axis.count ≠ axis.count →
      axis.elements = .error (.protocol .axis
        (.coordinateCount (axis.coordinates.extent axis.count) axis.count))) ∧
    (axis.coordinates.method = 0 → axis.coordinates.extent axis.count = axis.count) := by
  have sound := accepted.sound
  have regular := sound.extent_of_method
  by_cases compressed : axis.coordinates.isCompressed = true
  · obtain ⟨numbers, rebuilt, length⟩ := sound.exists_rebuild typed numeric compressed
    refine ⟨fun counted => ?_, fun miscounted => ?_, regular⟩
    · exact Axis.exists_elements_of_rebuild typed numeric compressed rebuilt (length.trans counted)
    · rw [← length] at miscounted ⊢
      exact Axis.elements_of_miscounted compressed rebuilt miscounted
  · obtain ⟨values, form⟩ := Coordinates.exists_literal compressed
    have counted := regular (by rw [form]; rfl)
    have same : ElementType.flat values.type = .flat type :=
      (sound.typed values (by simp [form, Coordinates.arrays])).trans typed
    refine ⟨fun _ => ⟨values, Axis.elements_of_literal form, ElementType.flat.inj same, ?_⟩,
      fun miscounted => absurd counted miscounted, regular⟩
    rw [form] at counted
    exact counted

/-- Three short integers in runs come back under their number, and are refused under another; both
axes can be written. -/
theorem elements_of_accepted_runs :
    (Axis.inRuns 3).Accepted .axis ∧
    (∃ values, (Axis.inRuns 3).elements = .ok values ∧ values.type = .short ∧ values.count = 3) ∧
    (Axis.inRuns 4).Accepted .axis ∧
    (Axis.inRuns 4).elements = .error (.protocol .axis (.coordinateCount 3 4)) := by
  have three : (Axis.inRuns 3).Accepted .axis := ⟨_, rfl⟩
  have four : (Axis.inRuns 4).Accepted .axis := ⟨_, rfl⟩
  have numeric : FlatType.short.isNumeric = true := rfl
  obtain ⟨back, -, -⟩ := elements_of_accepted numeric rfl three
  obtain ⟨-, refused, -⟩ := elements_of_accepted numeric rfl four
  exact ⟨three, back rfl, four, refused (by decide)⟩

/-- An axis that lists two integers in a compressed form, and declares four. -/
def Axis.miscounted : Axis := { Axis.ofOffsets ⟨.int, [1, 2]⟩ with count := 4 }

/-- Not every axis of numbers that can be written is rebuilt. -/
theorem not_forall_elements_of_accepted :
    ¬ ∀ (part : Section) (axis : Axis) (type : FlatType), type.isNumeric = true →
      axis.type = .flat type → axis.Accepted part →
      ∃ values, axis.elements = .ok values ∧ values.count = axis.count := by
  intro claim
  obtain ⟨values, rebuilt, -⟩ := claim .axis Axis.miscounted .int rfl rfl ⟨_, rfl⟩
  have numbers : Axis.miscounted.coordinates.rebuild Axis.miscounted.count =
      .ok ((Elements.integers ⟨.int, [1, 2]⟩).map .ofInt) :=
    Coordinates.rebuild_offsets (.inl rfl)
  have refused := Axis.elements_of_miscounted rfl numbers (by decide)
  rw [refused] at rebuilt
  cases rebuilt

end SignalAccess

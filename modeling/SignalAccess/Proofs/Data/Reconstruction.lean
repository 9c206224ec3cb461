import Mathlib.Data.List.Forall2
import SignalAccess.Proofs.Data.IntegerType
import SignalAccess.Proofs.Data.Line

/-!
# Reconstructed integer axes

Each compressed form of an integer axis stands for a table of integers. The coordinates are computed
with floating point numbers, and these denote the integers of the table as long as the integers stay
within 2^53, as those of the types of at most four bytes do. Then the axis is its table, provided
that the table has as many entries as the axis declares; otherwise the axis is refused.

Listed offsets take the same way. An integer of the wider types comes back from it only if it has no
more than 53 significant bits, or if it is the greatest of its type: what lies beyond the type is
brought back to its bound.
-/

namespace SignalAccess

open FlatType

/-! ## Integers of elements -/

namespace Elements

/-- The integers of elements of an integer type. -/
def integers (elements : Elements) : List Int := elements.words.map elements.type.integer

variable {values : Elements}

/-- There is one integer for each element. -/
theorem length_integers (values : Elements) : values.integers.length = values.count :=
  List.length_map _

/-- The integers of elements lie within the bounds of their type. -/
theorem integer_bounds_of_mem
    (integral : values.type.reading = .signed ∨ values.type.reading = .unsigned) {i : Int}
    (among : i ∈ values.integers) : values.type.least ≤ i ∧ i ≤ values.type.greatest := by
  obtain ⟨word, -, rfl⟩ := List.mem_map.mp among
  exact integer_bounds integral word

/-- The integers of elements of a short type are less than 2^32 away from zero. -/
theorem natAbs_lt_of_mem_integers (short : values.type.IsShortInteger) {i : Int}
    (among : i ∈ values.integers) : i.natAbs < 1 <<< 32 := by
  obtain ⟨above, below⟩ := integer_bounds_of_mem short.integral among
  exact short.natAbs_lt above below

/-- The numbers of elements of an integer type are those of their integers. -/
theorem numbers?_eq (integral : values.type.reading = .signed ∨ values.type.reading = .unsigned) :
    values.numbers? = some (values.integers.map .ofInt) := by
  have numbers : values.type.toBinary64 = Binary64.ofInt ∘ values.type.integer :=
    funext (toBinary64_eq integral)
  rw [numbers?, if_pos (isNumeric_of_integral integral), integers, List.map_map, numbers]

/-- The elements of a type with the words of some integers. -/
def ofIntegers (type : FlatType) (table : List Int) : Elements :=
  ⟨type, table.map (BitVec.ofInt (8 * type.width))⟩

/-- Elements are known from their integers. -/
theorem ofIntegers_integers (values : Elements) : ofIntegers values.type values.integers = values := by
  rw [ofIntegers, integers, List.map_map]
  exact congrArg (Elements.mk values.type) (List.map_id'' ofInt_integer values.words)

/-- Integers of a type come back from its elements. -/
theorem integers_ofIntegers {type : FlatType} {table : List Int}
    (integral : type.reading = .signed ∨ type.reading = .unsigned)
    (inside : ∀ i ∈ table, type.least ≤ i ∧ i ≤ type.greatest) :
    (ofIntegers type table).integers = table := by
  rw [integers, ofIntegers, List.map_map]
  refine (List.map_congr_left fun i among => ?_).trans (List.map_id table)
  exact integer_ofInt integral (inside i among).1 (inside i among).2

/-- Integers within the bounds of a type make up some elements exactly if they are theirs. -/
theorem ofIntegers_eq_iff {table : List Int}
    (integral : values.type.reading = .signed ∨ values.type.reading = .unsigned)
    (inside : ∀ i ∈ table, values.type.least ≤ i ∧ i ≤ values.type.greatest) :
    ofIntegers values.type table = values ↔ table = values.integers := by
  constructor
  · intro same
    have integers := congrArg Elements.integers same
    rwa [integers_ofIntegers integral inside] at integers
  · rintro rfl
    exact ofIntegers_integers values

end Elements

/-! ## The table of a compressed form -/

/-- So many integers, each of them the first one and so many distances. -/
def integerRun (length : Nat) (first distance : Int) : List Int :=
  (List.range length).map fun (i : Nat) => first + i * distance

/-- A run has the length that it is made for. -/
theorem length_integerRun (length : Nat) (first distance : Int) :
    (integerRun length first distance).length = length := by
  rw [integerRun, List.length_map, List.length_range]

/-- A progression is a run, counted from its first integer. -/
theorem progression_eq_integerRun (step : Int) (length : Nat) (first : Int) :
    progression step length first = integerRun length first step := by
  induction length generalizing first with
  | zero => rfl
  | succ length inductionHypothesis =>
    rw [progression, inductionHypothesis, integerRun, integerRun, List.range_succ_eq_map,
      List.map_cons, List.map_map]
    refine congr (congrArg _ ?_) (List.map_congr_left fun i _ => ?_)
    · rw [Int.natCast_zero, Int.zero_mul, Int.add_zero]
    · rw [Function.comp_apply, Int.natCast_succ, Int.add_mul, Int.one_mul]
      omega

namespace Coordinates

/-- The integers that compressed coordinates of an integer type stand for, of which so many are
declared. The arrays have the type of the axis; there is one start and one distance for each run, and
one of each for a sequence. -/
inductive Tabulates (type : FlatType) (declared : Nat) : Coordinates → List Int → Prop
  | linear {start step : Binary64} {first distance : Int} :
    start.Denotes first → step.Denotes distance →
    Tabulates type declared (.linear start step) (integerRun declared first distance)
  | runs {lengths : List Int32} {starts steps : Elements} :
    starts.type = type → steps.type = type →
    starts.count = lengths.length → steps.count = lengths.length →
    Tabulates type declared (.runs lengths starts steps)
      ((lengths.zip (starts.integers.zip steps.integers)).flatMap fun (length, first, distance) =>
        integerRun length.toInt.toNat first distance)
  | offsets {values : Elements} :
    values.type = type → Tabulates type declared (.offsets values) values.integers
  | sequence {length : UInt32} {start step : Elements} {first distance : Int} :
    start.type = type → step.type = type → start.integers = [first] → step.integers = [distance] →
    Tabulates type declared (.sequence length start step) (integerRun length.toNat first distance)

/-! ## Numbers that denote a table -/

/-- A run of numbers has the length that it is made for. -/
theorem length_arithmeticRun (length : Nat) (start step : Binary64) :
    (arithmeticRun length start step).length = length := by
  rw [arithmeticRun, List.length_map, List.length_range]

/-- A run that is summed up step by step has the length that it is made for. -/
theorem length_accumulate (step : Binary64) (length : Nat) (start : Binary64) :
    (accumulate step length start).length = length := by
  induction length generalizing start with
  | zero => rfl
  | succ length inductionHypothesis => exact congrArg (· + 1) (inductionHypothesis (start.add step))

/-- A line brings back its progression, one addition after the other. The number behind the last one
is not looked at, and may be anything. -/
theorem denotes_accumulate {start step : Binary64} {first distance : Int}
    (starts : start.Denotes first) (steps : step.Denotes distance) {length : Nat}
    (exact : ∀ i ∈ progression distance length first, i.natAbs ≤ 1 <<< 53) :
    List.Forall₂ Binary64.Denotes (accumulate step length start)
      (progression distance length first) := by
  induction length generalizing start first with
  | zero => exact .nil
  | succ length inductionHypothesis =>
    refine .cons starts ?_
    cases length with
    | zero => exact .nil
    | succ length =>
      have next : first + distance ∈ progression distance (length + 1 + 1) first := by
        simp [progression]
      exact inductionHypothesis (starts.add steps (exact _ next)) fun i among =>
        exact i (List.mem_cons_of_mem first among)

/-- The numbers of a run denote its integers, which are exact one by one. -/
theorem denotes_arithmeticRun {length : Nat} {first distance : Int} (few : length ≤ 1 <<< 32)
    (startSmall : first.natAbs < 1 <<< 32) (stepSmall : distance.natAbs < 1 <<< 32)
    (exact : ∀ i ∈ integerRun length first distance, i.natAbs < 1 <<< 32) :
    List.Forall₂ Binary64.Denotes (arithmeticRun length (.ofInt first) (.ofInt distance))
      (integerRun length first distance) := by
  rw [arithmeticRun, integerRun, List.forall₂_map_left_iff, List.forall₂_map_right_iff,
    List.forall₂_same]
  intro j among
  have value := exact _ (List.mem_map_of_mem among)
  have index := List.mem_range.mp among
  have factor : (Binary64.ofInt j).Denotes j := Binary64.denotes_ofInt (by omega)
  have distances := factor.mul (Binary64.denotes_ofInt (i := distance) (by omega)) (by omega)
  exact (Binary64.denotes_ofInt (by omega)).add distances (by omega)

/-- Lists that are related member by member are related when they are joined. -/
theorem forall₂_flatMap {α β γ : Type} {R : α → β → Prop} {f : γ → List α} {g : γ → List β}
    {l : List γ} (related : ∀ x ∈ l, List.Forall₂ R (f x) (g x)) :
    List.Forall₂ R (l.flatMap f) (l.flatMap g) := by
  induction l with
  | nil => exact .nil
  | cons x others inductionHypothesis =>
    rw [List.flatMap_cons, List.flatMap_cons]
    refine List.rel_append (related x List.mem_cons_self) (inductionHypothesis fun y among => ?_)
    exact related y (List.mem_cons_of_mem x among)

variable {type : FlatType} {declared : Nat} {table : List Int}

/-- The runs of starts and steps, number by number. -/
theorem rebuild_runs {lengths : List Int32} {starts steps : Elements}
    (integralStarts : starts.type.reading = .signed ∨ starts.type.reading = .unsigned)
    (integralSteps : steps.type.reading = .signed ∨ steps.type.reading = .unsigned) :
    (Coordinates.runs lengths starts steps).rebuild declared =
      .ok ((lengths.zip (starts.integers.zip steps.integers)).flatMap fun (length, first, distance) =>
        arithmeticRun length.toInt.toNat (.ofInt first) (.ofInt distance)) := by
  rw [rebuild, Elements.numbers?_eq integralStarts, Elements.numbers?_eq integralSteps]
  dsimp only
  rw [List.zip_map, List.zip_map_right, List.flatMap_map]
  rfl

/-- A sequence of integers is rebuilt as a run of numbers. -/
theorem rebuild_sequence {length : UInt32} {start step : Elements} {first distance : Int}
    (integralStart : start.type.reading = .signed ∨ start.type.reading = .unsigned)
    (integralStep : step.type.reading = .signed ∨ step.type.reading = .unsigned)
    (starts : start.integers = [first]) (steps : step.integers = [distance]) :
    (Coordinates.sequence length start step).rebuild declared =
      .ok (arithmeticRun length.toNat (.ofInt first) (.ofInt distance)) := by
  rw [rebuild, Elements.numbers?_eq integralStart, Elements.numbers?_eq integralStep, starts, steps]
  rfl

/-- Offsets of integers are rebuilt as their numbers. -/
theorem rebuild_offsets {values : Elements}
    (integral : values.type.reading = .signed ∨ values.type.reading = .unsigned) :
    (Coordinates.offsets values).rebuild declared = .ok (values.integers.map .ofInt) := by
  rw [rebuild, Elements.numbers?_eq integral]

/-- As many numbers are computed as the table has integers. -/
theorem Tabulates.exists_rebuild {coordinates : Coordinates}
    (integral : type.reading = .signed ∨ type.reading = .unsigned)
    (tabulates : coordinates.Tabulates type declared table) :
    ∃ numbers, coordinates.rebuild declared = .ok numbers ∧ numbers.length = table.length := by
  cases tabulates with
  | linear _ _ => exact ⟨_, rfl, by rw [length_accumulate, length_integerRun]⟩
  | runs startType stepType _ _ =>
    subst startType
    refine ⟨_, rebuild_runs integral (stepType ▸ integral), ?_⟩
    rw [List.length_flatMap, List.length_flatMap]
    simp only [length_arithmeticRun, length_integerRun]
  | offsets typed =>
    subst typed
    exact ⟨_, rebuild_offsets integral, List.length_map _⟩
  | sequence startType stepType starts steps =>
    subst startType
    refine ⟨_, rebuild_sequence integral (stepType ▸ integral) starts steps, ?_⟩
    rw [length_arithmeticRun, length_integerRun]

/-- The numbers denote the table, if its integers are those of a type of at most four bytes. -/
theorem Tabulates.denotes {coordinates : Coordinates} (short : type.IsShortInteger)
    (tabulates : coordinates.Tabulates type declared table)
    (inside : ∀ i ∈ table, type.least ≤ i ∧ i ≤ type.greatest) {numbers : List Binary64}
    (rebuilt : coordinates.rebuild declared = .ok numbers) :
    List.Forall₂ Binary64.Denotes numbers table := by
  have small : ∀ i ∈ table, i.natAbs < 1 <<< 32 := fun i among =>
    short.natAbs_lt (inside i among).1 (inside i among).2
  cases tabulates with
  | @linear start step first distance starts steps =>
    obtain rfl : accumulate step declared start = numbers := Except.ok.inj rebuilt
    rw [← progression_eq_integerRun] at small ⊢
    refine denotes_accumulate starts steps fun i among => ?_
    have := small i among
    omega
  | @runs lengths starts steps startType stepType _ _ =>
    subst startType
    have shortSteps : steps.type.IsShortInteger := stepType ▸ short
    rw [rebuild_runs short.integral shortSteps.integral] at rebuilt
    obtain rfl := Except.ok.inj rebuilt
    refine forall₂_flatMap fun (length, first, distance) among => ?_
    obtain ⟨-, later⟩ := List.of_mem_zip among
    obtain ⟨start, step⟩ := List.of_mem_zip later
    have few : length.toInt.toNat ≤ 1 <<< 32 := by
      have := length.toInt_lt
      omega
    refine denotes_arithmeticRun few (Elements.natAbs_lt_of_mem_integers short start)
      (Elements.natAbs_lt_of_mem_integers shortSteps step) fun i inRun => ?_
    exact small i (List.mem_flatMap.mpr ⟨_, among, inRun⟩)
  | @offsets values typed =>
    subst typed
    rw [rebuild_offsets short.integral] at rebuilt
    obtain rfl := Except.ok.inj rebuilt
    rw [List.forall₂_map_left_iff, List.forall₂_same]
    intro i among
    have := small i among
    exact Binary64.denotes_ofInt (by omega)
  | @sequence length start step first distance startType stepType starts steps =>
    subst startType
    have shortStep : step.type.IsShortInteger := stepType ▸ short
    rw [rebuild_sequence short.integral shortStep.integral starts steps] at rebuilt
    obtain rfl := Except.ok.inj rebuilt
    have few : length.toNat ≤ 1 <<< 32 := Nat.le_of_lt length.toNat_lt
    refine denotes_arithmeticRun few (Elements.natAbs_lt_of_mem_integers short ?_)
      (Elements.natAbs_lt_of_mem_integers shortStep ?_) small
    · rw [starts]
      exact List.mem_cons_self
    · rw [steps]
      exact List.mem_cons_self

end Coordinates

/-! ## The coordinates of an axis -/

namespace Axis

variable {axis : Axis} {type : FlatType} {numbers : List Binary64} {table : List Int}

/-- The elements of an axis in a compressed form are made of the numbers that are rebuilt. -/
theorem elements_of_rebuild (compressed : axis.coordinates.isCompressed = true)
    (rebuilt : axis.coordinates.rebuild axis.count = .ok numbers) :
    axis.elements = (ofNumbers axis.type axis.count numbers).mapError (.protocol .axis) := by
  have listed : axis.elements = (axis.coordinates.rebuild axis.count >>=
      ofNumbers axis.type axis.count).mapError (.protocol .axis) := by
    rw [elements]
    split
    · next literal =>
      rw [literal] at compressed
      cases compressed
    · rfl
  rw [listed, rebuilt]
  rfl

/-- A compressed axis is refused if there are not as many numbers as it declares. -/
theorem elements_of_miscounted (compressed : axis.coordinates.isCompressed = true)
    (rebuilt : axis.coordinates.rebuild axis.count = .ok numbers)
    (miscounted : numbers.length ≠ axis.count) :
    axis.elements = .error (.protocol .axis (.coordinateCount numbers.length axis.count)) := by
  have refused : ofNumbers axis.type axis.count numbers =
      .error (.coordinateCount numbers.length axis.count) := by
    unfold ofNumbers
    rw [if_pos miscounted]
  rw [elements_of_rebuild compressed rebuilt, refused]
  rfl

/-- Numbers that denote integers become the nearest integers of the type. -/
theorem elements_of_denotes (integral : type.reading = .signed ∨ type.reading = .unsigned)
    (typed : axis.type = .flat type) (compressed : axis.coordinates.isCompressed = true)
    (rebuilt : axis.coordinates.rebuild axis.count = .ok numbers)
    (denoted : List.Forall₂ Binary64.Denotes numbers table) (counted : table.length = axis.count) :
    axis.elements = .ok (.ofIntegers type (table.map type.clamp)) := by
  have words : numbers.map type.ofBinary64 =
      (table.map type.clamp).map (BitVec.ofInt (8 * type.width)) := by
    rw [List.map_map, ← List.forall₂_eq_eq_eq, List.forall₂_map_left_iff, List.forall₂_map_right_iff]
    exact denoted.imp fun _ _ => ofBinary64_of_denotes integral
  have counts : ¬numbers.length ≠ axis.count :=
    not_not_intro (denoted.length_eq.trans counted)
  have made : ofNumbers axis.type axis.count numbers =
      .ok (.ofIntegers type (table.map type.clamp)) := by
    rw [typed, ofNumbers, if_neg counts, if_pos (isNumeric_of_integral integral), words]
    rfl
  rw [elements_of_rebuild compressed rebuilt, made]
  rfl

/-- Numbers that denote integers of the type become these. -/
theorem elements_of_inside (integral : type.reading = .signed ∨ type.reading = .unsigned)
    (typed : axis.type = .flat type) (compressed : axis.coordinates.isCompressed = true)
    (rebuilt : axis.coordinates.rebuild axis.count = .ok numbers)
    (denoted : List.Forall₂ Binary64.Denotes numbers table) (counted : table.length = axis.count)
    (inside : ∀ i ∈ table, type.least ≤ i ∧ i ≤ type.greatest) :
    axis.elements = .ok (.ofIntegers type table) := by
  have same : table.map type.clamp = table := by
    refine (List.map_congr_left fun i among => ?_).trans (List.map_id table)
    exact clamp_of_bounds (inside i among).1 (inside i among).2
  rw [elements_of_denotes integral typed compressed rebuilt denoted counted, same]

end Axis

/-! ## Compressed axes of short integers -/

/-- The types of integers of up to four bytes are short. -/
theorem short_of_mem {type : FlatType} (among : type ∈ [FlatType.char, .short, .int, .unsignedChar,
    .unsignedShort, .unsignedInt]) : type.IsShortInteger := by
  have parted : type ∈ [FlatType.char, .short, .int] ++
      [FlatType.unsignedChar, .unsignedShort, .unsignedInt] := among
  rcases List.mem_append.mp parted with signed | unsigned
  · exact (signed_of_mem signed).1
  · exact (unsigned_of_mem unsigned).1

/-- Only compressed coordinates stand for a table. -/
theorem Coordinates.Tabulates.isCompressed {coordinates : Coordinates} {type : FlatType}
    {declared : Nat} {table : List Int} (tabulates : coordinates.Tabulates type declared table) :
    coordinates.isCompressed = true := by
  cases tabulates with
  | linear _ _ => rfl
  | runs _ _ _ _ => rfl
  | offsets _ => rfl
  | sequence _ _ _ _ => rfl

/-- A compressed axis of a type of at most four bytes is the table that its form stands for, if the
integers of the table are of the type and as many as the axis declares. An axis that declares another
number is refused. -/
theorem elements_of_tabulates {axis : Axis} {type : FlatType} {table : List Int}
    (among : type ∈ [FlatType.char, .short, .int, .unsignedChar, .unsignedShort, .unsignedInt])
    (typed : axis.type = .flat type)
    (tabulates : axis.coordinates.Tabulates type axis.count table) :
    (table.length = axis.count → (∀ i ∈ table, type.least ≤ i ∧ i ≤ type.greatest) →
      ∃ values, axis.elements = .ok values ∧ values.type = type ∧ values.integers = table) ∧
    (table.length ≠ axis.count →
      axis.elements = .error (.protocol .axis (.coordinateCount table.length axis.count))) := by
  have short := short_of_mem among
  have compressed := tabulates.isCompressed
  obtain ⟨numbers, rebuilt, length⟩ := tabulates.exists_rebuild short.integral
  constructor
  · intro counted inside
    have denoted := tabulates.denotes short inside rebuilt
    refine ⟨.ofIntegers type table, ?_, rfl, Elements.integers_ofIntegers short.integral inside⟩
    exact Axis.elements_of_inside short.integral typed compressed rebuilt denoted counted inside
  · intro miscounted
    rw [← length] at miscounted ⊢
    exact Axis.elements_of_miscounted compressed rebuilt miscounted

/-- An axis of two-byte integers in three runs, of which the second has a negative length. -/
def Axis.inRuns (declared : Nat) : Axis where
  type := .flat .short
  count := declared
  coordinates := .runs [2, -1, 1] ⟨.short, [10, 5, -3]⟩ ⟨.short, [-4, 7, 0]⟩
  errors := .absent
  units := []
  label := []

/-- The three runs stand for 10, 6 and -3, as the second one is empty. -/
theorem Axis.tabulates_inRuns (declared : Nat) : (Axis.inRuns declared).coordinates.Tabulates .short
    (Axis.inRuns declared).count [10, 6, -3] := by
  have form : Coordinates.Tabulates .short declared (.runs [2, -1, 1] ⟨.short, [10, 5, -3]⟩
      ⟨.short, [-4, 7, 0]⟩) _ := .runs rfl rfl rfl rfl
  exact form

/-- The run of negative length is empty, so there are three coordinates. -/
theorem elements_of_tabulates_runs :
    (∃ values, (Axis.inRuns 3).elements = .ok values ∧ values.type = .short ∧
      values.integers = [10, 6, -3]) ∧
    (Axis.inRuns 4).elements = .error (.protocol .axis (.coordinateCount 3 4)) := by
  obtain ⟨back, -⟩ := elements_of_tabulates (.tail _ (.head _)) rfl (Axis.tabulates_inRuns 3)
  obtain ⟨-, refused⟩ := elements_of_tabulates (.tail _ (.head _)) rfl (Axis.tabulates_inRuns 4)
  exact ⟨back rfl (by decide), refused (by decide)⟩

/-! ## Listed offsets -/

namespace FlatType

variable {type : FlatType} {i : Int}

/-- An integer type has at most eight bytes. -/
theorem width_le (integral : type.reading = .signed ∨ type.reading = .unsigned) : type.width ≤ 8 := by
  cases type
  case doubleComplex => simp [reading] at integral
  all_goals decide

/-- The bounds of an integer type are brought back. -/
theorem clamp_nearestInt_bounds (integral : type.reading = .signed ∨ type.reading = .unsigned) :
    Binary64.nearestInt type.least = type.least ∧
      type.clamp (Binary64.nearestInt type.greatest) = type.greatest := by
  cases type
  case float => simp [reading] at integral
  case double => simp [reading] at integral
  case complex => simp [reading] at integral
  case doubleComplex => simp [reading] at integral
  case string => simp [reading] at integral
  case capnp => simp [reading] at integral
  all_goals decide

/-- An integer of a type comes back from its number if it is exact, or the greatest of the type. -/
theorem clamp_nearestInt_iff (integral : type.reading = .signed ∨ type.reading = .unsigned)
    (above : type.least ≤ i) (below : i ≤ type.greatest) :
    type.clamp (Binary64.nearestInt i) = i ↔
      BinaryFormat.unitOf i.natAbs ∣ i.natAbs ∨ i = type.greatest := by
  obtain ⟨least, greatest⟩ := clamp_nearestInt_bounds integral
  have exact : Binary64.nearestInt i = i ↔ BinaryFormat.unitOf i.natAbs ∣ i.natAbs := by
    rw [← BinaryFormat.nearestOf_eq_iff, Binary64.nearestInt]
    split
    · omega
    · omega
  rw [← exact]
  constructor
  · intro back
    by_cases inside : type.least ≤ Binary64.nearestInt i ∧ Binary64.nearestInt i ≤ type.greatest
    · rw [clamp_of_bounds inside.1 inside.2] at back
      exact .inl back
    · by_cases beyond : type.greatest < Binary64.nearestInt i
      · rw [clamp] at back
        exact .inr (by omega)
      · -- Below the type the least integer would be left, which is exact.
        obtain rfl : i = type.least := by
          rw [clamp] at back
          omega
        exact .inl least
  · rintro (same | rfl)
    · rw [same, clamp_of_bounds above below]
    · exact greatest

/-- The integers of a type have at most 64 bits. -/
theorem natAbs_le (integral : type.reading = .signed ∨ type.reading = .unsigned)
    (above : type.least ≤ i) (below : i ≤ type.greatest) : i.natAbs ≤ 1 <<< 64 := by
  have width := type.width_le integral
  exact Nat.le_trans (Nat.le_of_lt (natAbs_lt_of_bounds integral above below))
    (BinaryFormat.one_shiftLeft_le (by omega))

end FlatType

/-- An axis that lists its coordinates in a compressed form. -/
structure Axis.ListsOffsets (axis : Axis) (values : Elements) : Prop where
  coordinates : axis.coordinates = .offsets values
  type : axis.type = values.elementType
  count : axis.count = values.count

/-- What comes back of listed offsets: the nearest integer of 53 significant bits, or the bound of
the type that it is beyond. -/
theorem Axis.ListsOffsets.elements {axis : Axis} {values : Elements} (lists : axis.ListsOffsets values)
    (integral : values.type.reading = .signed ∨ values.type.reading = .unsigned) :
    axis.elements = .ok (.ofIntegers values.type
      (values.integers.map fun i => values.type.clamp (Binary64.nearestInt i))) := by
  have compressed : axis.coordinates.isCompressed = true := by
    rw [lists.coordinates]
    rfl
  have rebuilt : axis.coordinates.rebuild axis.count = .ok (values.integers.map .ofInt) := by
    rw [lists.coordinates, Coordinates.rebuild_offsets integral]
  have denoted : List.Forall₂ Binary64.Denotes (values.integers.map .ofInt)
      (values.integers.map Binary64.nearestInt) := by
    rw [List.forall₂_map_left_iff, List.forall₂_map_right_iff, List.forall₂_same]
    intro i among
    obtain ⟨above, below⟩ := Elements.integer_bounds_of_mem integral among
    exact Binary64.toRat?_ofInt (natAbs_le integral above below)
  have counted : (values.integers.map Binary64.nearestInt).length = axis.count := by
    rw [List.length_map, Elements.length_integers, lists.count]
  rw [Axis.elements_of_denotes integral lists.type compressed rebuilt denoted counted, List.map_map]
  rfl

/-- Listed offsets of an integer type come back if each of them is the greatest of its type or has
no more than 53 significant bits, and only then. Those of at most four bytes always do. -/
theorem elements_of_offsets {axis : Axis} {values : Elements} (lists : axis.ListsOffsets values)
    (integral : values.type.reading = .signed ∨ values.type.reading = .unsigned) :
    (values.type.width ≤ 4 → axis.elements = .ok values) ∧
    (axis.elements = .ok values ↔ ∀ i ∈ values.integers,
      BinaryFormat.unitOf i.natAbs ∣ i.natAbs ∨ i = values.type.greatest) := by
  have back : axis.elements = .ok values ↔ ∀ i ∈ values.integers,
      BinaryFormat.unitOf i.natAbs ∣ i.natAbs ∨ i = values.type.greatest := by
    have inside : ∀ i ∈ values.integers.map fun i => values.type.clamp (Binary64.nearestInt i),
        values.type.least ≤ i ∧ i ≤ values.type.greatest := by
      intro i among
      obtain ⟨j, -, rfl⟩ := List.mem_map.mp among
      exact clamp_bounds integral _
    have fixed := List.map_inj_left (l := values.integers) (g := id)
      (f := fun i => values.type.clamp (Binary64.nearestInt i))
    rw [List.map_id] at fixed
    rw [lists.elements integral, Except.ok.injEq, Elements.ofIntegers_eq_iff integral inside, fixed]
    refine forall₂_congr fun i among => ?_
    obtain ⟨above, below⟩ := Elements.integer_bounds_of_mem integral among
    exact clamp_nearestInt_iff integral above below
  refine ⟨fun narrow => back.mpr fun i among => .inl ?_, back⟩
  have := Elements.natAbs_lt_of_mem_integers ⟨integral, narrow⟩ among
  rw [BinaryFormat.unitOf_of_lt (by omega)]
  exact Nat.one_dvd _

/-- An axis that lists elements as offsets, under their type and their number. -/
def Axis.ofOffsets (values : Elements) : Axis :=
  { Axis.literal values with coordinates := .offsets values }

/-- The axis of some offsets lists them. -/
theorem Axis.listsOffsets (values : Elements) : (Axis.ofOffsets values).ListsOffsets values :=
  ⟨rfl, rfl, rfl⟩

/-- Both bounds of an eight-byte type come back, and 2^53. -/
theorem elements_of_offsets_bounds :
    (Axis.ofOffsets ⟨.long, [0x8000000000000000, 0x7fffffffffffffff, 0x20000000000000]⟩).elements =
      .ok ⟨.long, [0x8000000000000000, 0x7fffffffffffffff, 0x20000000000000]⟩ := by
  obtain ⟨-, back⟩ := elements_of_offsets (Axis.listsOffsets
    ⟨.long, [0x8000000000000000, 0x7fffffffffffffff, 0x20000000000000]⟩) (.inl rfl)
  exact back.mpr (by decide)

/-- Listed offsets do not always come back: of 2^53 + 1, 2^53 does. -/
theorem not_forall_elements_of_offsets :
    ¬ ∀ (axis : Axis) (values : Elements), axis.ListsOffsets values →
      values.type.reading = .signed ∨ values.type.reading = .unsigned →
      axis.elements = .ok values := by
  intro claim
  have lists := Axis.listsOffsets ⟨.long, [0x20000000000001]⟩
  have constant := congrArg Elements.integers
    (Except.ok.inj ((lists.elements (.inl rfl)).symm.trans (claim _ _ lists (.inl rfl))))
  revert constant
  decide

end SignalAccess

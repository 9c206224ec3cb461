import SignalAccess.Proofs.Data.Compression
import SignalAccess.Proofs.Number.Mean

/-!
# Ascending axes of wide integers

The integers of an eight-byte type need not be exact as floating point numbers. Such an axis has no
line if one of its numbers is beyond 2^53. An integer next to 2^53 is not told from it, as it has the
same number. The gaps between the coordinates may be twice as wide, and are rounded too; but no two
neighbours among them are rounded to one number unless they are the same, so what lies on a line goes
on by one step.

The line brings back what the numbers stand for, by the mean of the steps. So an ascending axis comes
back exactly if its coordinates are within 2^53 and their step does not fall short.
-/

namespace SignalAccess

open Binary64 FlatType

/-! ## Integers next to 2^53 -/

/-- The exact integer that has the number of an integer next to 2^53. -/
def held (i : Int) : Int := max (-(1 <<< 53 : Nat)) (min (1 <<< 53 : Nat) i)

variable {i : Int} {values : List Int}

/-- An integer is held within the exact ones. -/
theorem natAbs_held_le (i : Int) : (held i).natAbs ≤ 1 <<< 53 := by
  rw [held]
  omega

/-- Exactly the exact integers are held as they are. -/
theorem held_eq_iff : held i = i ↔ i.natAbs ≤ 1 <<< 53 := by
  rw [held]
  omega

/-- An integer next to 2^53 has the number of the exact one that it is held as. -/
theorem ofInt_held (near : i.natAbs ≤ 1 <<< 53 + 1) : ofInt (held i) = ofInt i := by
  by_cases exact : i.natAbs ≤ 1 <<< 53
  · rw [held_eq_iff.mpr exact]
  · rcases Int.natAbs_eq i with positive | negative
    · rw [positive, show i.natAbs = 1 <<< 53 + 1 by omega]
      decide
    · rw [negative, show i.natAbs = 1 <<< 53 + 1 by omega]
      decide

/-- Integers of which each is next to 2^53 or exact have the numbers of those that they are held
as. -/
theorem map_ofInt_held (near : ∀ i ∈ values, i.natAbs ≤ 1 <<< 53 + 1) :
    (values.map held).map ofInt = values.map ofInt := by
  rw [List.map_map]
  exact List.map_congr_left fun i among => ofInt_held (near i among)

/-- All integers that are held are exact. -/
theorem natAbs_le_of_mem_map_held (values : List Int) :
    ∀ i ∈ values.map held, i.natAbs ≤ 1 <<< 53 :=
  List.forall_mem_map.mpr fun i _ => natAbs_held_le i

/-- Integers that do not fall are held as integers that do not fall. -/
theorem isChain_map_held (ascending : values.IsChain (· ≤ ·)) :
    (values.map held).IsChain (· ≤ ·) := by
  refine List.isChain_map_of_isChain held (fun a b ordered => ?_) ascending
  rw [held, held]
  omega

/-! ## The line of ascending integers -/

/-- Regular steps of ascending integers are the same, since two neighbours among them together are
no wider than the integers are apart. -/
theorem isChain_gaps_iff (ascending : values.IsChain (· ≤ ·))
    (exact : ∀ i ∈ values, i.natAbs ≤ 1 <<< 53) :
    (gaps values).IsChain (fun a b => nearestInt a = nearestInt b) ↔
      (gaps values).IsChain fun a b => a = b := by
  induction values with
  | nil => simp [gaps]
  | cons first others inductionHypothesis =>
    cases others with
    | nil => simp [gaps]
    | cons second others =>
      have later := inductionHypothesis ascending.tail fun i among =>
        exact i (List.mem_cons_of_mem first among)
      cases others with
      | nil => simp [gaps]
      | cons third others =>
        have unfolded : gaps (first :: second :: third :: others) =
            (second - first) :: (third - second) :: gaps (third :: others) := rfl
        have shorter : gaps (second :: third :: others) =
            (third - second) :: gaps (third :: others) := rfl
        obtain ⟨up, rest⟩ := List.isChain_cons_cons.mp ascending
        obtain ⟨upAgain, -⟩ := List.isChain_cons_cons.mp rest
        have firstExact := exact first (by simp)
        have thirdExact := exact third (by simp)
        rw [shorter] at later
        rw [unfolded, List.isChain_cons_cons, List.isChain_cons_cons, later,
          nearestInt_eq_iff (by omega) (by omega) (by omega)]

namespace Line

variable {rule : LineRule Binary64} {line : Line Binary64}

/-- The limit is compared with the number, so one more than 2^53 passes. -/
theorem isBeyond_ofInt_iff (limited : rule.limit = some (ofInt (1 <<< 53 : Nat)))
    (bounded : i.natAbs ≤ 1 <<< 64) :
    isBeyond .rounded rule (ofInt i) = false ↔ i.natAbs ≤ 1 <<< 53 + 1 := by
  have magnitude := toRat?_ofInt (i := i.natAbs) (by omega)
  have limit := denotes_ofInt (i := (1 <<< 53 : Nat)) (by decide)
  have exceeds : isBeyond .rounded rule (ofInt i) =
      (ofInt i).abs.exceeds (ofInt (1 <<< 53 : Nat)) := by
    rw [isBeyond, limited]
    rfl
  rw [exceeds, abs_ofInt, exceeds_eq magnitude limit, decide_eq_false_iff_not, Rat.intCast_lt_intCast,
    nearestInt, if_neg (by omega), Int.natAbs_natCast, Int.ofNat_lt, Nat.not_lt,
    BinaryFormat.nearestOf_le_iff]

/-- The line of ascending integers within 2^53 is known from the first of them, and from their step
and their number. -/
theorem fit?_ofInt_iff_of_ascending (precise : rule.precision = zero)
    (limited : rule.limit = some (ofInt (1 <<< 53 : Nat))) (ascending : values.IsChain (· ≤ ·))
    (exact : ∀ i ∈ values, i.natAbs ≤ 1 <<< 53) :
    fit? .rounded rule (values.map ofInt) = some line ↔
      3 ≤ values.length ∧ ∃ (first : Int) (step : Nat),
        values = progression step values.length first ∧
        line = ⟨ofInt first, rule.settle ((ofInt (step * (values.length - 1) : Nat)).div
          (ofInt (values.length - 1 : Nat)))⟩ := by
  have within : ∀ i ∈ values, isBeyond .rounded rule (ofInt i) = false := by
    intro i among
    have small := exact i among
    exact (isBeyond_ofInt_iff limited (by omega)).mpr (by omega)
  have regular := isRegular_ofInt_iff precise exact
  rw [isChain_gaps_iff ascending exact, ← exists_isChain_iff_gaps] at regular
  rw [fit?_ofInt_iff_of_regular within regular]
  refine and_congr_right fun enough => exists_congr fun first => ?_
  have nonempty : values ≠ [] := List.ne_nil_of_length_pos (Nat.zero_lt_of_lt enough)
  have span {step : Nat} (same : values = progression step values.length first) :
      (ofInt (first + step * (values.length - 1 : Nat))).sub (ofInt first) =
        ofInt (step * (values.length - 1) : Nat) := by
    obtain ⟨head, last⟩ := ends_of_progression nonempty same
    rw [sub_ofInt (exact _ (List.mem_of_getLast? last)) (exact first (List.mem_of_head? head)),
      Int.add_comm, Int.add_sub_cancel, Int.natCast_mul]
  constructor
  · rintro ⟨step, same, rfl⟩
    have up : 0 ≤ step := by
      have pairwise := List.isChain_iff_pairwise.mp ascending
      rw [same] at pairwise
      exact (pairwise_progression_iff (by omega)).mp pairwise
    obtain ⟨step, rfl⟩ := Int.eq_ofNat_of_zero_le up
    exact ⟨step, same, by rw [span same]⟩
  · rintro ⟨step, same, rfl⟩
    exact ⟨step, same, by rw [span same]⟩

end Line

/-- The way that integers within 2^53 go is no longer than 2^54. -/
theorem span_le_of_progression {first : Int} {step : Nat} (nonempty : values ≠ [])
    (exact : ∀ i ∈ values, i.natAbs ≤ 1 <<< 53)
    (same : values = progression step values.length first) :
    step * (values.length - 1) ≤ 1 <<< 54 := by
  obtain ⟨head, last⟩ := ends_of_progression nonempty same
  have start := exact first (List.mem_of_head? head)
  have stop := exact _ (List.mem_of_getLast? last)
  rw [← Int.natCast_mul] at stop
  omega

/-! ## Wide integer types -/

namespace FlatType

/-- A type of integers that need not be exact as floating point numbers. -/
structure IsWideInteger (type : FlatType) : Prop where
  integral : type.reading = .signed ∨ type.reading = .unsigned
  wide : type.width = 8

variable {type : FlatType}

/-- The types of integers of eight bytes are wide. -/
theorem wide_of_mem (among : type ∈ [FlatType.long, .long64, .unsignedLong, .unsignedLong64]) :
    type.IsWideInteger := by
  simp only [List.mem_cons, List.not_mem_nil, or_false] at among
  rcases among with rfl | rfl | rfl | rfl
  all_goals exact ⟨by decide, rfl⟩

namespace IsWideInteger

variable (wide : type.IsWideInteger)

include wide

/-- The rule for lines of wide integers ends at the number of 2^53. -/
theorem lineRule_limit : type.lineRule.limit = some (.ofInt (1 <<< 53 : Nat)) := by
  have integral : type.reading ≠ .floating := by
    rcases wide.integral with signed | unsigned
    · rw [signed]
      decide
    · rw [unsigned]
      decide
  exact if_pos ⟨integral, wide.wide⟩

/-- No bound of a wide type lies between zero and 2^53, or between zero and -2^53. -/
theorem bounds_cases : (1 <<< 53 : Nat) ≤ type.greatest ∧
    (type.least = 0 ∨ type.least ≤ -(1 <<< 53 : Nat)) := by
  rcases wide.integral with signed | unsigned
  · obtain ⟨least, greatest⟩ := bounds_of_signed signed
    rw [wide.wide] at least greatest
    omega
  · obtain ⟨least, greatest⟩ := bounds_of_unsigned unsigned
    rw [wide.wide] at greatest
    omega

/-- A wide type holds what its integers are held for. -/
theorem held_bounds (above : type.least ≤ i) (below : i ≤ type.greatest) :
    type.least ≤ held i ∧ held i ≤ type.greatest := by
  have bounds := wide.bounds_cases
  rw [held]
  omega

/-- The mean of so many steps is one of a wide type. -/
theorem settle_mean {count step : Nat} (enough : 2 ≤ count) (span : step * count ≤ 1 <<< 54) :
    type.lineRule.settle ((ofInt (step * count : Nat)).div (ofInt count)) =
      .ofInt (meanStep count step) := by
  have bounds := wide.bounds_cases
  have mean := meanStep_le count step
  have few := Nat.mul_le_mul_left step enough
  rw [lineRule_settle wide.integral, truncate_mean enough span, Int.min_eq_right (by omega),
    Int.max_eq_right (by omega)]

end IsWideInteger

end FlatType

/-! ## The line of an ascending axis -/

namespace Elements

variable {values : Elements}

/-- There is one held integer for each value. -/
theorem length_map_held (values : Elements) : (values.integers.map held).length = values.count := by
  rw [List.length_map, length_integers]

/-- Three values or more leave held integers. -/
theorem map_held_ne_nil (values : Elements) (enough : 3 ≤ values.count) :
    values.integers.map held ≠ [] := by
  refine List.ne_nil_of_length_pos ?_
  rw [length_map_held]
  exact Nat.zero_lt_of_lt enough

/-- What lies on a line is within 2^53, or next to it. -/
theorem near_of_line? (wide : values.type.IsWideInteger) {line : Line Binary64}
    (found : values.line? = some line) : ∀ i ∈ values.integers, i.natAbs ≤ 1 <<< 53 + 1 := by
  intro i among
  obtain ⟨above, below⟩ := integer_bounds_of_mem wide.integral among
  rw [line?_eq wide.integral, Line.fit?_eq_some_iff] at found
  have within := found.2.1 _ (List.mem_map_of_mem among)
  have bounded := natAbs_le wide.integral above below
  exact (Line.isBeyond_ofInt_iff wide.lineRule_limit bounded).mp within

/-- The line of ascending wide integers starts at what the first of them is held for, and goes on by
the mean of the steps. -/
theorem line?_iff_of_ascending (wide : values.type.IsWideInteger)
    (ascending : values.integers.IsChain (· ≤ ·)) {line : Line Binary64} :
    values.line? = some line ↔
      (∀ i ∈ values.integers, i.natAbs ≤ 1 <<< 53 + 1) ∧ 3 ≤ values.count ∧
        ∃ (first : Int) (step : Nat),
          values.integers.map held = progression step values.count first ∧
          line = ⟨.ofInt first, .ofInt (meanStep (values.count - 1) step)⟩ := by
  -- Nothing but integers within 2^53 and next to it lies on a line, so these alone matter.
  refine (and_iff_right_of_imp (near_of_line? wide)).symm.trans (and_congr_right fun near => ?_)
  have exact := natAbs_le_of_mem_map_held values.integers
  have length := values.length_map_held
  have precise := lineRule_precision wide.integral
  rw [line?_eq wide.integral, ← map_ofInt_held near, Line.fit?_ofInt_iff_of_ascending precise
    wide.lineRule_limit (isChain_map_held ascending) exact, length]
  refine and_congr_right fun enough => exists_congr fun first => exists_congr fun step => ?_
  refine and_congr_right fun spaced => ?_
  have span := span_le_of_progression (values.map_held_ne_nil enough) exact (by rw [length, spaced])
  rw [length] at span
  rw [wide.settle_mean (by omega) span]

/-- The integers go on by one step, and the mean of their steps falls short of it. -/
def StepFallsShort (values : Elements) : Prop :=
  ∃ (first : Int) (step : Nat), values.integers = progression step values.count first ∧
    FallsShort (values.count - 1) step

end Elements

/-! ## What the line brings back -/

namespace Axis

variable {axis compressed : Axis} {values : Elements}

/-- Wide values that do not fall are compressed exactly if no more than the next integer to 2^53
stands among them and they are held as a progression; the line goes on by the mean of its steps. -/
theorem compressed?_iff_of_ascending (wide : values.type.IsWideInteger) (lists : axis.Lists values)
    (ascending : values.integers.IsChain (· ≤ ·)) :
    axis.compressed? = some compressed ↔
      (∀ i ∈ values.integers, i.natAbs ≤ 1 <<< 53 + 1) ∧ 3 ≤ values.count ∧
        ∃ (first : Int) (step : Nat),
          values.integers.map held = progression step values.count first ∧
          compressed = axis.along first (meanStep (values.count - 1) step) := by
  rw [compressed?_eq lists.coordinates, Option.map_eq_some_iff]
  constructor
  · rintro ⟨line, fitted, rfl⟩
    obtain ⟨near, enough, first, step, same, rfl⟩ :=
      (Elements.line?_iff_of_ascending wide ascending).mp fitted
    exact ⟨near, enough, first, step, same, rfl⟩
  · rintro ⟨near, enough, first, step, same, rfl⟩
    exact ⟨_, (Elements.line?_iff_of_ascending wide ascending).mpr
      ⟨near, enough, first, step, same, rfl⟩, rfl⟩

/-- Where a progression goes on by no more than the step of what the integers are held for, it stays
within 2^53 and within the type. -/
theorem bounds_of_mem_progression (wide : values.type.IsWideInteger) (enough : 3 ≤ values.count)
    {first : Int} {step mean : Nat} (small : mean ≤ step)
    (spaced : values.integers.map held = progression step values.count first) :
    ∀ i ∈ progression mean values.count first,
      i.natAbs ≤ 1 <<< 53 ∧ values.type.least ≤ i ∧ i ≤ values.type.greatest := by
  intro i inside
  have length := values.length_map_held
  have bounds : ∀ j ∈ values.integers.map held,
      j.natAbs ≤ 1 <<< 53 ∧ values.type.least ≤ j ∧ j ≤ values.type.greatest := by
    refine List.forall_mem_map.mpr fun j among => ⟨natAbs_held_le j, ?_⟩
    obtain ⟨above, below⟩ := Elements.integer_bounds_of_mem wide.integral among
    exact wide.held_bounds above below
  obtain ⟨head, last⟩ :=
    ends_of_progression (values.map_held_ne_nil enough) (by rw [length, spaced])
  obtain ⟨start, lower, -⟩ := bounds first (List.mem_of_head? head)
  obtain ⟨stop, -, upper⟩ := bounds _ (List.mem_of_getLast? last)
  rw [progression_eq_integerRun] at inside
  obtain ⟨place, among, rfl⟩ := List.mem_map.mp inside
  have before := List.mem_range.mp among
  have way : (place : Int) * mean ≤ step * (values.count - 1 : Nat) := by
    rw [← Int.natCast_mul, ← Int.natCast_mul, Int.ofNat_le, Nat.mul_comm step]
    exact Nat.mul_le_mul (by omega) small
  have forward : 0 ≤ (place : Int) * mean := by
    rw [← Int.natCast_mul]
    exact Int.natCast_nonneg _
  rw [length] at stop upper
  omega

/-- The line of an ascending axis brings back the progression by the mean of the steps. -/
theorem elements_along_mean (wide : values.type.IsWideInteger) (lists : axis.Lists values)
    (enough : 3 ≤ values.count) {first : Int} {step mean : Nat} (small : mean ≤ step)
    (spaced : values.integers.map held = progression step values.count first) :
    (axis.along first mean).elements =
      .ok (.ofIntegers values.type (progression mean values.count first)) := by
  have bounds := bounds_of_mem_progression wide enough small spaced
  obtain ⟨head, -, third⟩ := mem_progression mean first enough
  have start := (bounds first head).1
  have later := (bounds _ third).1
  rw [← lists.count] at bounds ⊢
  exact elements_along wide.integral lists.type start (by omega)
    (fun i inside => (bounds i inside).1) fun i inside => (bounds i inside).2

end Axis

/-- An ascending axis of an eight-byte type comes back from its line exactly if its coordinates are
all within 2^53 and the mean of their steps does not fall short. -/
theorem elements_compressed_ascending {axis compressed : Axis} {values : Elements}
    (lists : axis.Lists values)
    (among : values.type ∈ [FlatType.long, .long64, .unsignedLong, .unsignedLong64])
    (ascending : values.integers.IsChain (· ≤ ·)) (found : axis.compressed? = some compressed) :
    compressed.elements = .ok values ↔
      (∀ i ∈ values.integers, i.natAbs ≤ 1 <<< 53) ∧ ¬values.StepFallsShort := by
  have wide := wide_of_mem among
  obtain ⟨-, enough, first, step, spaced, rfl⟩ :=
    (Axis.compressed?_iff_of_ascending wide lists ascending).mp found
  have small := meanStep_le (values.count - 1) step
  have bounds := Axis.bounds_of_mem_progression wide enough small spaced
  rw [Axis.elements_along_mean wide lists enough small spaced, Except.ok.injEq,
    Elements.ofIntegers_eq_iff wide.integral fun i inside => (bounds i inside).2]
  have unchanged (exact : ∀ i ∈ values.integers, i.natAbs ≤ 1 <<< 53) :
      values.integers = progression step values.count first := by
    rw [← spaced]
    exact (List.map_id values.integers).symm.trans
      (List.map_congr_left fun i inside => (held_eq_iff.mpr (exact i inside)).symm)
  constructor
  · intro same
    have exact : ∀ i ∈ values.integers, i.natAbs ≤ 1 <<< 53 :=
      same ▸ fun i inside => (bounds i inside).1
    refine ⟨exact, ?_⟩
    rintro ⟨start, distance, listed, short⟩
    have spaces := step_eq_of_progression_eq (by omega) ((unchanged exact).symm.trans listed)
    have means := step_eq_of_progression_eq (by omega) (same.trans (unchanged exact))
    obtain rfl : step = distance := Int.ofNat.inj spaces
    exact meanStep_eq_iff.mp (Int.ofNat.inj means) short
  · rintro ⟨exact, steep⟩
    have mean : meanStep (values.count - 1) step = step :=
      meanStep_eq_iff.mpr fun short => steep ⟨first, step, unchanged exact, short⟩
    rw [mean, unchanged exact]

/-- The coordinates -2^53, 0 and 2^53. -/
def Elements.widest : Elements := ⟨.long, [0xffe0000000000000, 0, 0x20000000000000]⟩

/-- Coordinates come back that are as far apart as can be. -/
theorem elements_compressed_ascending_widest : ∃ compressed,
    (Axis.literal .widest).compressed? = some compressed ∧ compressed.elements = .ok .widest := by
  have lists : (Axis.literal .widest).Lists .widest := ⟨rfl, rfl, rfl⟩
  have found := (Axis.compressed?_iff_of_ascending (wide_of_mem (by decide)) lists (by decide)).mpr
    ⟨by decide, by decide, -0x20000000000000, 0x20000000000000, by decide, rfl⟩
  refine ⟨_, found, ?_⟩
  refine (elements_compressed_ascending lists (by decide) (by decide) found).mpr ⟨by decide, ?_⟩
  -- Two steps make up an even way.
  rintro ⟨-, step, -, -, odd, -⟩
  have two : Elements.widest.count - 1 = 2 := rfl
  rw [two] at odd
  omega

/-- The coordinates -1, d - 1, 2d - 1 and 2^53, where d is the third part of 2^53 + 1. -/
def Elements.inThirds : Elements :=
  ⟨.long, [0xffffffffffffffff, 3002399751580330, 6004799503160661, 9007199254740992]⟩

/-- Not every ascending axis comes back: of these coordinates, the last comes back as 2^53 - 3. -/
theorem not_forall_elements_compressed_ascending :
    ¬ ∀ (axis compressed : Axis) (values : Elements), axis.Lists values →
      values.type ∈ [FlatType.long, .long64, .unsignedLong, .unsignedLong64] →
      values.integers.IsChain (· ≤ ·) → axis.compressed? = some compressed →
      compressed.elements = .ok values := by
  intro claim
  have wide : Elements.inThirds.type.IsWideInteger := wide_of_mem (by decide)
  have lists : (Axis.literal .inThirds).Lists .inThirds := ⟨rfl, rfl, rfl⟩
  have spaced : Elements.inThirds.integers.map held =
      progression (3002399751580331 : Nat) Elements.inThirds.count (-1) := by decide
  have found := (Axis.compressed?_iff_of_ascending wide lists (by decide)).mpr
    ⟨by decide, by decide, _, _, spaced, rfl⟩
  have back := Axis.elements_along_mean wide lists (by decide) (meanStep_le 3 _) spaced
  have unchanged := claim _ _ _ lists (by decide) (by decide) found
  have constant := congrArg Elements.integers (Except.ok.inj (back.symm.trans unchanged))
  revert constant
  decide

end SignalAccess

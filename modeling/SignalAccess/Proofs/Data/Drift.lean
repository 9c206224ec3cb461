import Mathlib.Algebra.Order.Field.Basic
import Mathlib.Algebra.Order.Field.Rat
import Mathlib.Tactic.FieldSimp
import Mathlib.Tactic.Linarith
import Mathlib.Tactic.Ring
import SignalAccess.Data.Compression
import SignalAccess.Proofs.Data.Line

/-!
# How far a line is from its coordinates

Steps count as the same if each differs from the one before it by no more than the precision. Such
differences add up: a step may be half as many times the precision away from the mean as there are
steps before the last, and the coordinates on the line drift from the listed ones accordingly, most of
all in the middle. Up to four coordinates, no step is further from the mean than the precision.

This is about exact arithmetic, in which nothing but the differences of the steps is lost.
-/

namespace SignalAccess

/-! ## Steps that change little -/

/-- The step behind a place of a sequence. -/
def stepAt (v : Nat → Rat) (place : Nat) : Rat := v (place + 1) - v place

/-- Each of so many steps differs from the one before it by no more than a tolerance. -/
def Steady (tolerance : Rat) (count : Nat) (v : Nat → Rat) : Prop :=
  ∀ place, place + 2 ≤ count → |stepAt v (place + 1) - stepAt v place| ≤ tolerance

namespace Steady

variable {tolerance : Rat} {count : Nat} {v : Nat → Rat} (steady : Steady tolerance count v)

include steady

/-- Steps differ by as many tolerances as they are apart. -/
theorem stepAt_near (place apart : Nat) (inside : place + apart + 1 ≤ count) :
    |stepAt v (place + apart) - stepAt v place| ≤ apart * tolerance := by
  induction apart with
  | zero => simp
  | succ apart inductionHypothesis =>
    have before := inductionHypothesis (by omega)
    have change := steady (place + apart) (by omega)
    have parts := abs_sub_le (stepAt v (place + (apart + 1))) (stepAt v (place + apart))
      (stepAt v place)
    rw [Nat.add_assoc] at change
    push_cast
    linarith

/-- What lies ahead of a place is known from its step, but for the tolerances on the way. -/
theorem ahead_near (place way : Nat) (inside : place + way ≤ count) :
    |v (place + way) - v place - way * stepAt v place| ≤ way * (way - 1) / 2 * tolerance := by
  induction way with
  | zero => simp
  | succ way inductionHypothesis =>
    have before := inductionHypothesis (by omega)
    have last := steady.stepAt_near place way (by omega)
    have parts := abs_add_le (v (place + way) - v place - way * stepAt v place)
      (stepAt v (place + way) - stepAt v place)
    have sum : v (place + (way + 1)) - v place - (way + 1 : Nat) * stepAt v place =
        v (place + way) - v place - way * stepAt v place +
          (stepAt v (place + way) - stepAt v place) := by
      rw [stepAt, stepAt, Nat.add_assoc]
      push_cast
      ring
    rw [sum]
    push_cast
    linarith

/-- What lies behind a place is known from its step, but for the tolerances on the way. -/
theorem back_near (place way : Nat) (inside : place + way + 1 ≤ count) :
    |v (place + way) - v place - way * stepAt v (place + way)| ≤
      way * (way + 1) / 2 * tolerance := by
  induction way generalizing place with
  | zero => simp
  | succ way inductionHypothesis =>
    have ahead := inductionHypothesis (place + 1) (by omega)
    have first := steady.stepAt_near place (way + 1) (by omega)
    rw [Nat.add_assoc, Nat.add_comm 1 way] at ahead
    rw [abs_sub_comm] at first
    have parts := abs_add_le
      (v (place + (way + 1)) - v (place + 1) - way * stepAt v (place + (way + 1)))
      (stepAt v place - stepAt v (place + (way + 1)))
    have sum : v (place + (way + 1)) - v place - (way + 1 : Nat) * stepAt v (place + (way + 1)) =
        v (place + (way + 1)) - v (place + 1) - way * stepAt v (place + (way + 1)) +
          (stepAt v place - stepAt v (place + (way + 1))) := by
      have start : stepAt v place = v (place + 1) - v place := rfl
      rw [start]
      push_cast
      ring
    rw [sum]
    push_cast at first ⊢
    linarith

/-- A step is half as many tolerances away from the mean as there are others, at most. -/
theorem stepAt_near_mean (permitted : 0 ≤ tolerance) {place : Nat} (inside : place < count) :
    |stepAt v place - (v count - v 0) / count| ≤ (count - 1) / 2 * tolerance := by
  obtain ⟨ahead, rfl⟩ := Nat.exists_eq_add_of_lt inside
  have front := steady.ahead_near place (ahead + 1) (by omega)
  have rear := steady.back_near 0 place (by omega)
  rw [Nat.zero_add] at rear
  have parts := abs_add_le (v (place + (ahead + 1)) - v place - (ahead + 1 : Nat) * stepAt v place)
    (v place - v 0 - place * stepAt v place)
  have positive : (0 : Rat) < (place + ahead + 1 : Nat) := by positivity
  have mean : (v (place + ahead + 1) - v 0) / (place + ahead + 1 : Nat) - stepAt v place =
      (v (place + (ahead + 1)) - v place - (ahead + 1 : Nat) * stepAt v place +
        (v place - v 0 - place * stepAt v place)) / (place + ahead + 1 : Nat) := by
    rw [Nat.add_assoc]
    field_simp
    push_cast
    ring
  rw [abs_sub_comm, mean, abs_div, abs_of_pos positive, div_le_iff₀ positive]
  have spare : 0 ≤ (place : Rat) * ahead * tolerance := by positivity
  push_cast at front parts ⊢
  linarith

/-- A line by the mean of the steps is away from each place by half as many tolerances as there are
ways to choose a step before the place and another one behind it. -/
theorem line_near_of_lt {place : Nat} (inside : place < count) :
    |v 0 + place * ((v count - v 0) / count) - v place| ≤
      place * (count - place) / 2 * tolerance := by
  obtain ⟨ahead, rfl⟩ := Nat.exists_eq_add_of_lt inside
  have front := steady.ahead_near place (ahead + 1) (by omega)
  have rear := steady.back_near 0 place (by omega)
  rw [Nat.zero_add] at rear
  have parts := abs_sub
    (place * (v (place + (ahead + 1)) - v place - (ahead + 1 : Nat) * stepAt v place))
    ((ahead + 1 : Nat) * (v place - v 0 - place * stepAt v place))
  have positive : (0 : Rat) < (place + ahead + 1 : Nat) := by positivity
  have drift : v 0 + place * ((v (place + ahead + 1) - v 0) / (place + ahead + 1 : Nat)) - v place =
      (place * (v (place + (ahead + 1)) - v place - (ahead + 1 : Nat) * stepAt v place) -
        (ahead + 1 : Nat) * (v place - v 0 - place * stepAt v place)) /
        (place + ahead + 1 : Nat) := by
    rw [Nat.add_assoc]
    field_simp
    push_cast
    ring
  rw [drift, abs_div, abs_of_pos positive, div_le_iff₀ positive]
  rw [abs_mul, abs_mul, Nat.abs_cast, Nat.abs_cast] at parts
  have fronts := mul_le_mul_of_nonneg_left front (Nat.cast_nonneg (α := Rat) place)
  have rears := mul_le_mul_of_nonneg_left rear (Nat.cast_nonneg (α := Rat) (ahead + 1))
  push_cast at fronts rears parts ⊢
  linarith

/-- The last place is on the line. -/
theorem line_near (place : Nat) (inside : place ≤ count) (positive : 0 < count) :
    |v 0 + place * ((v count - v 0) / count) - v place| ≤
      place * (count - place) / 2 * tolerance := by
  rcases Nat.lt_or_eq_of_le inside with before | rfl
  · exact steady.line_near_of_lt before
  · have nonzero : (place : Rat) ≠ 0 := Nat.cast_ne_zero.mpr (Nat.ne_of_gt positive)
    rw [mul_div_cancel₀ _ nonzero]
    simp

end Steady

/-! ## Lines of rationals -/

namespace Line

variable {rule : LineRule Rat} {line : Line Rat} {v : Nat → Rat} {length : Nat}

/-- The absolute value of exact arithmetic is that of the rationals. -/
theorem abs_exact (x : Rat) : Arithmetic.exact.abs x = |x| := by
  show (if x < 0 then -x else x) = |x|
  split
  · next negative => exact (abs_of_neg negative).symm
  · next natural => exact (abs_of_nonneg (not_lt.mp natural)).symm

/-- The differences between the neighbours of a sequence are its steps. -/
theorem differences_exact (v : Nat → Rat) (length : Nat) :
    differences .exact ((List.range length).map v) = (List.range (length - 1)).map (stepAt v) := by
  refine List.ext_getElem (by simp [differences]) fun place inside _ => ?_
  simp [differences, stepAt, Arithmetic.exact]

/-- At exact arithmetic, values are regular exactly if their steps are steady. -/
theorem isRegular_exact_iff :
    isRegular .exact rule ((List.range length).map v) = true ↔
      Steady rule.precision (length - 1) v := by
  rw [isRegular, differences_exact, differences_exact, List.all_map, List.all_eq_true]
  constructor
  · intro permitted place inside
    have change := permitted place (List.mem_range.mpr (by omega))
    rw [Function.comp_apply, abs_exact, Bool.not_eq_true', Arithmetic.exact,
      decide_eq_false_iff_not, not_lt] at change
    exact change
  · intro steady place inside
    have change := steady place (by have := List.mem_range.mp inside; omega)
    rw [Function.comp_apply, abs_exact, Bool.not_eq_true', Arithmetic.exact,
      decide_eq_false_iff_not, not_lt]
    exact change

/-- A line is fitted to a sequence of three places or more if its steps change little. It starts at
the first place and goes on by the mean of the steps. -/
theorem fit?_exact_iff (unlimited : rule.limit = none) :
    fit? .exact rule ((List.range length).map v) = some line ↔
      3 ≤ length ∧ Steady rule.precision (length - 1) v ∧
        line = ⟨v 0, rule.settle ((v (length - 1) - v 0) / (length - 1 : Nat))⟩ := by
  have within : ∀ value, isBeyond .exact rule value = false := by simp [isBeyond, unlimited]
  rw [fit?_eq_some_iff, isRegular_exact_iff, List.length_map, List.length_range]
  refine and_congr_right fun enough => ?_
  obtain ⟨count, rfl⟩ : ∃ count, length = count + 1 := ⟨length - 1, by omega⟩
  have head : ((List.range (count + 1)).map v).head? = some (v 0) := by
    rw [List.head?_map, List.head?_range, if_neg (Nat.succ_ne_zero count), Option.map_some]
  have last : ((List.range (count + 1)).map v).getLast? = some (v count) := by
    rw [List.getLast?_map, List.getLast?_range, if_neg (Nat.succ_ne_zero count), Option.map_some,
      Nat.add_sub_cancel]
  rw [Nat.add_sub_cancel, head, last]
  constructor
  · rintro ⟨-, steady, _, _, ⟨rfl⟩, ⟨rfl⟩, rfl⟩
    exact ⟨steady, rfl⟩
  · rintro ⟨steady, rfl⟩
    exact ⟨fun value _ => within value, steady, _, _, rfl, rfl, rfl⟩

/-- So many values, each of them the one before it and a step. -/
def points {α : Type} (add : α → α → α) (step : α) : (length : Nat) → (start : α) → List α
  | 0, _ => []
  | length + 1, start => start :: points add step length (add start step)

/-- The coordinates of a line are its points, as numbers are added. -/
theorem accumulate_eq_points (step : Binary64) (length : Nat) (start : Binary64) :
    Coordinates.accumulate step length start = points Binary64.add step length start := by
  induction length generalizing start with
  | zero => rfl
  | succ length inductionHypothesis =>
    exact congrArg (start :: ·) (inductionHypothesis (start.add step))

/-- As rationals are added, each point is the first one and so many steps. -/
theorem points_eq_map (step : Rat) (length : Nat) (start : Rat) :
    points (· + ·) step length start =
      (List.range length).map fun (place : Nat) => start + place * step := by
  induction length generalizing start with
  | zero => rfl
  | succ length inductionHypothesis =>
    rw [points, inductionHypothesis, List.range_succ_eq_map, List.map_cons, List.map_map]
    refine congr (congrArg _ ?_) (List.map_congr_left fun place _ => ?_)
    · simp
    · rw [Function.comp_apply]
      push_cast
      ring

/-- The rule for lines of doubles, as rationals. -/
def doubleRule : LineRule Rat where
  precision := 1 / (1 <<< 52 : Nat)
  limit := none
  settle := id

/-- The rule as rationals is the one by which lines of doubles are fitted, whose step is a double as
it is. -/
theorem lineRule_double : FlatType.double.lineRule.precision.toRat? = some doubleRule.precision ∧
    FlatType.double.lineRule.limit = none ∧ ∀ x, FlatType.double.lineRule.settle x = x := by
  refine ⟨?_, rfl, fun x => rfl⟩
  refine Binary64.toRat?_eq_some_iff.mpr ⟨false, 1 <<< 52, -104, by decide +kernel, ?_⟩
  rw [Binary64.rational, doubleRule, Nat.one_shiftLeft]
  norm_num

/-- The precision of doubles is positive. -/
theorem precision_doubleRule_pos : 0 < doubleRule.precision := by
  rw [doubleRule, Nat.one_shiftLeft]
  positivity

/-! ## How far the coordinates are -/

/-- The steps between values are all within a tolerance of the step of a line. -/
def StepsWithin (line : Line Rat) (tolerance : Rat) (values : List Rat) : Prop :=
  ∀ step ∈ differences .exact values, |step - line.step| ≤ tolerance

/-- A line brings each of some values back within the tolerance of its place. -/
def BringsBack (line : Line Rat) (tolerance : Nat → Rat) (values : List Rat) : Prop :=
  ∀ (place : Nat) (original : Rat), values[place]? = some original →
    ∃ back, (points (· + ·) line.step values.length line.start)[place]? = some back ∧
      |back - original| ≤ tolerance place

/-- The steps of a sequence lie within a tolerance if the step at each place does. -/
theorem stepsWithin_map_range {tolerance : Rat} :
    StepsWithin line tolerance ((List.range length).map v) ↔
      ∀ place < length - 1, |stepAt v place - line.step| ≤ tolerance := by
  rw [StepsWithin, differences_exact, List.forall_mem_map]
  simp only [List.mem_range]

/-- A line brings a sequence back if it brings the value at each place back. -/
theorem bringsBack_map_range {tolerance : Nat → Rat} :
    BringsBack line tolerance ((List.range length).map v) ↔
      ∀ place < length, |line.start + place * line.step - v place| ≤ tolerance place := by
  rw [BringsBack, List.length_map, List.length_range, points_eq_map]
  constructor
  · intro near place inside
    obtain ⟨back, found, close⟩ := near place (v place) (by simp [inside])
    rw [List.getElem?_map, List.getElem?_range inside, Option.map_some, Option.some.injEq] at found
    exact found ▸ close
  · intro near place original found
    rw [List.getElem?_map, Option.map_eq_some_iff] at found
    obtain ⟨_, ranged, rfl⟩ := found
    obtain ⟨inside, rfl⟩ := List.getElem?_eq_some_iff.mp ranged
    rw [List.length_range] at inside
    rw [List.getElem_range, List.getElem?_map, List.getElem?_range inside]
    exact ⟨_, rfl, near place inside⟩

/-- Every list is a sequence of its values. -/
theorem exists_eq_map_range (values : List Rat) :
    ∃ (v : Nat → Rat) (length : Nat), values = (List.range length).map v := by
  refine ⟨fun place => values.getD place 0, values.length, ?_⟩
  exact List.ext_getElem (by simp) fun place inside _ => by simp [inside]

/-- Every step of a line of doubles is half as many times the precision away from the mean as there
are steps before the last, at most; and each coordinate is brought back to within half as many times
the precision as there are pairs of a step before it and a step behind. Of up to four coordinates,
no step is further from the mean than the precision, and each coordinate comes back to within so
many times the precision as there are steps before it. -/
theorem drift_of_fitted {values : List Rat}
    (fitted : fit? .exact doubleRule values = some line) :
    line.StepsWithin ((values.length - 2) / 2 * doubleRule.precision) values ∧
    line.BringsBack (fun place => place * (values.length - 1 - place) / 2 * doubleRule.precision)
      values ∧
    (values.length ≤ 4 → line.StepsWithin doubleRule.precision values ∧
      line.BringsBack (fun place => place * doubleRule.precision) values) := by
  obtain ⟨v, length, rfl⟩ := exists_eq_map_range values
  obtain ⟨enough, steady, rfl⟩ := (fit?_exact_iff rfl).mp fitted
  obtain ⟨count, rfl⟩ : ∃ count, length = count + 1 := ⟨length - 1, by omega⟩
  simp only [stepsWithin_map_range, bringsBack_map_range, List.length_map, List.length_range,
    Nat.add_sub_cancel] at steady ⊢
  have permitted := precision_doubleRule_pos.le
  have steps (place : Nat) (inside : place < count) :=
    steady.stepAt_near_mean permitted inside
  have places (place : Nat) (inside : place < count + 1) :=
    steady.line_near place (by omega) (by omega)
  refine ⟨?_, ?_, fun few => ⟨?_, ?_⟩⟩
  · intro place inside
    rw [show ((count + 1 : Nat) : Rat) - 2 = count - 1 by push_cast; ring]
    exact steps place inside
  · intro place inside
    rw [show ((count + 1 : Nat) : Rat) - 1 = count by push_cast; ring]
    exact places place inside
  · intro place inside
    have small : ((count : Rat) - 1) / 2 ≤ 1 := by
      have : (count : Rat) ≤ 3 := by exact_mod_cast (by omega : count ≤ 3)
      linarith
    exact (steps place inside).trans
      ((mul_le_mul_of_nonneg_right small permitted).trans_eq (one_mul _))
  · intro place inside
    have small : (place : Rat) * (count - place) / 2 ≤ place := by
      rcases Nat.eq_zero_or_pos place with rfl | positive
      · simp
      · have : (count : Rat) - place ≤ 2 := by
          have : (count : Rat) ≤ place + 2 := by exact_mod_cast (by omega : count ≤ place + 2)
          linarith
        have := mul_le_mul_of_nonneg_left this (Nat.cast_nonneg (α := Rat) place)
        linarith
    exact (places place inside).trans (mul_le_mul_of_nonneg_right small permitted)

/-! ## Steps that grow -/

/-- Coordinates whose steps grow by the precision: one, three, six times as much, and so on. -/
def growing (place : Nat) : Rat := place * (place + 1) / 2 * doubleRule.precision

/-- The step of the growing sequence at a place is one precision longer than the one in front of
it. -/
theorem stepAt_growing (place : Nat) :
    stepAt growing place = (place + 1) * doubleRule.precision := by
  rw [stepAt, growing, growing]
  push_cast
  ring

/-- Growing steps are admitted, however many. -/
theorem fit?_growing (length : Nat) (enough : 3 ≤ length) :
    fit? .exact doubleRule ((List.range length).map growing) =
      some ⟨0, length / 2 * doubleRule.precision⟩ := by
  refine (fit?_exact_iff rfl).mpr ⟨enough, ?_, ?_⟩
  · intro place _
    rw [stepAt_growing, stepAt_growing, show ((place + 1 : Nat) + 1) * doubleRule.precision -
      (place + 1) * doubleRule.precision = doubleRule.precision by push_cast; ring,
      abs_of_nonneg precision_doubleRule_pos.le]
  · obtain ⟨count, rfl⟩ : ∃ count, length = count + 1 := ⟨length - 1, by omega⟩
    have nonzero : (count : Rat) ≠ 0 := Nat.cast_ne_zero.mpr (by omega)
    have start : growing 0 = 0 := by simp [growing]
    have mean : (growing count - growing 0) / count =
        (count + 1 : Nat) / 2 * doubleRule.precision := by
      rw [start, growing]
      field_simp
      push_cast
      ring
    rw [Nat.add_sub_cancel, mean, start]
    rfl

/-- No bounds could be less: for any number of coordinates, the first of growing steps is as far
away from the mean as can be, and each coordinate comes back as far away as can be. -/
theorem drift_growing (length : Nat) (enough : 3 ≤ length) :
    |stepAt growing 0 - length / 2 * doubleRule.precision| =
        (length - 2) / 2 * doubleRule.precision ∧
      ∀ place < length, |0 + place * (length / 2 * doubleRule.precision) - growing place| =
        place * (length - 1 - place) / 2 * doubleRule.precision := by
  have permitted := precision_doubleRule_pos.le
  constructor
  · have long : (0 : Rat) ≤ length - 2 := by
      have : (3 : Rat) ≤ length := by exact_mod_cast enough
      linarith
    rw [stepAt_growing, abs_sub_comm, show length / 2 * doubleRule.precision -
      ((0 : Nat) + 1) * doubleRule.precision = (length - 2) / 2 * doubleRule.precision by
        push_cast; ring]
    exact abs_of_nonneg (by positivity)
  · intro place inside
    have before : (0 : Rat) ≤ length - 1 - place := by
      have : (place : Rat) + 1 ≤ length := by exact_mod_cast inside
      linarith
    rw [growing, show 0 + place * (length / 2 * doubleRule.precision) -
      place * (place + 1) / 2 * doubleRule.precision =
        place * (length - 1 - place) / 2 * doubleRule.precision by ring]
    exact abs_of_nonneg (by positivity)

/-- The steps between five such coordinates are within one and a half times the precision. -/
theorem drift_of_fitted_growing :
    fit? .exact doubleRule ((List.range 5).map growing) =
        some ⟨0, (5 : Nat) / 2 * doubleRule.precision⟩ ∧
      StepsWithin ⟨0, (5 : Nat) / 2 * doubleRule.precision⟩ (3 / 2 * doubleRule.precision)
        ((List.range 5).map growing) := by
  have fitted := fit?_growing 5 (by decide)
  obtain ⟨steps, -⟩ := drift_of_fitted fitted
  rw [List.length_map, List.length_range,
    show ((5 : Nat) : Rat) - 2 = 3 by norm_num] at steps
  exact ⟨fitted, steps⟩

/-- Not every step is within the precision: of those between five doubles, the first is not. -/
theorem not_forall_drift_of_fitted :
    ¬ ∀ (coordinates : List Binary64) (values : List Rat) (line : Line Rat),
      coordinates.mapM Binary64.toRat? = some values → fit? .exact doubleRule values = some line →
      line.StepsWithin doubleRule.precision values ∧
        line.BringsBack (fun place => place * doubleRule.precision) values := by
  intro claim
  have doubles : [⟨0⟩, ⟨0x3cb0000000000000⟩, ⟨0x3cc8000000000000⟩, ⟨0x3cd8000000000000⟩,
      ⟨0x3ce4000000000000⟩].mapM Binary64.toRat? = some ((List.range 5).map growing) := by
    decide +kernel
  obtain ⟨near, -⟩ := claim _ _ _ doubles (fit?_growing 5 (by decide))
  have first := stepsWithin_map_range.mp near 0 (by decide)
  have positive := precision_doubleRule_pos
  rw [(drift_growing 5 (by decide)).1] at first
  norm_num at first
  linarith

end Line

end SignalAccess

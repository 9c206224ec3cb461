import SignalAccess.Proofs.Number.Integers

/-!
# The mean of equal steps

A span of so many equal steps is divided by their number, and the integer part of the quotient is
taken. Span and quotient are rounded. Up to 2^53 nothing is lost. A wider span is rounded to an even
number, and the step comes out all the same, but for one case: the span is rounded down, and the
quotient, which is now just below the step, is too far from it to be rounded up again. Its integer
part is one less than the step.
-/

namespace SignalAccess

namespace BinaryFormat

/-- What is nearest is known from the quotient and from what remains. -/
theorem nearest_of_parts {n d m r : Nat} (parts : n = d * m + r) (proper : r < d) :
    nearest n d = if 2 * r < d then m else if d < 2 * r then m + 1 else m + m % 2 := by
  have positive : 0 < d := Nat.zero_lt_of_lt proper
  have quotient : n / d = m := by
    rw [parts, Nat.mul_add_div positive, Nat.div_eq_of_lt proper, Nat.add_zero]
  have remainder : n % d = r := by rw [parts, Nat.mul_add_mod, Nat.mod_eq_of_lt proper]
  rw [nearest, quotient, remainder]

variable {p q k : Nat}

/-- Where a quotient is below 2^53, its units of the last place are parts of one, and it is scaled
up before it is rounded. -/
theorem significand_of_le (narrow : k ≤ 52) : significand p q k = nearest (p <<< (52 - k)) q := by
  rw [significand]
  split
  · obtain rfl : k = 52 := by omega
    rfl
  · rfl

/-- Rounding takes a quotient as the number it is, however it is written. -/
theorem significand_mul {c : Nat} (positive : c ≠ 0) (p q k : Nat) :
    significand (c * p) (c * q) k = significand p q k := by
  have moved (n l : Nat) : (c * n) <<< l = c * n <<< l := by
    rw [shiftLeft_eq_mul, shiftLeft_eq_mul n, Nat.mul_assoc]
  rw [significand, significand, moved, moved, nearest_mul_mul positive, nearest_mul_mul positive]

end BinaryFormat

namespace Binary64

open BinaryFormat

variable {p q k : Nat}

/-- The number of a quotient is its significand in units of its last place. -/
theorem toRat?_ofRat_div (bounds : IsAt p q k) (finite : k ≤ 1022) (negativeZero : Bool) :
    (ofRat negativeZero ((p : Rat) / (q : Rat))).toRat? =
      some ((significand p q k : Rat) * (2 : Rat) ^ ((k : Int) - 52)) := by
  have quotientPos : 0 < (p : Rat) / (q : Rat) := by
    rw [Rat.div_def]
    refine Rat.mul_pos (Rat.natCast_pos.mpr (Nat.pos_of_ne_zero bounds.numerator_ne_zero)) ?_
    exact Rat.inv_pos.mpr (Rat.natCast_pos.mpr (Nat.pos_of_ne_zero bounds.positive))
  generalize same : (p : Rat) / (q : Rat) = x at quotientPos ⊢
  have made : mkRat p q = x := by rw [Rat.mkRat_eq_div, ← same, Rat.intCast_natCast]
  obtain ⟨c, scale, numerator, denominator⟩ := Rat.mkRat_num_den bounds.positive made
  have numerators : p = c * x.num.natAbs := by
    rw [Nat.mul_comm, ← Int.natAbs_natCast c, ← Int.natAbs_mul, ← numerator, Int.natAbs_natCast]
  have denominators : q = c * x.den := by rw [Nat.mul_comm, denominator]
  rw [numerators, denominators] at bounds
  have reduced := bounds.of_mul
  obtain ⟨leading, bounded⟩ := significand_bounds reduced
  obtain ⟨s, e, decoded, is⟩ :=
    decode_of_rounded false leading bounded (by omega : k + 1022 ≤ 2044)
  rw [signOf_false, Nat.zero_add, ← roundQuotient_eq reduced finite] at decoded
  have unsigned : ¬(x < 0 ∨ x = 0 ∧ negativeZero = true) := by
    rintro (negative | ⟨zero, -⟩)
    · exact Rat.not_lt.mpr (Rat.le_of_lt quotientPos) negative
    · exact Rat.ne_of_gt quotientPos zero
  have fits : double.roundQuotient x.num.natAbs x.den < UInt64.size := by
    have := roundQuotient_le_infinity x.num.natAbs x.den
    rw [infinity_double] at this
    rw [size_eq_units]
    omega
  have unbiased : double.minExponent + (k + 1022 : Nat) = (k : Int) - 52 := by
    rw [minExponent_double]
    omega
  rw [numerators, denominators, significand_mul scale]
  refine toRat?_eq_some_iff.mpr ⟨false, s, e, ?_, ?_⟩
  · rw [ofRat, BinaryFormat.round, if_neg unsigned, value_ofBits fits, decoded]
  · rw [is, unbiased]
    rfl

/-- The integer part of a positive number lies next below it. -/
theorem truncate_of_between {x : Binary64} {q : Rat} {m : Int} (finite : x.toRat? = some q)
    (natural : 0 ≤ m) (low : (m : Rat) ≤ q) (high : q < ((m + 1 : Int) : Rat))
    (least greatest : Int) : x.truncate least greatest = max least (min greatest m) := by
  obtain ⟨s, n, e, value, rfl⟩ := toRat?_eq_some_iff.mp finite
  have floor : (rational s n e).floor = m := by
    have atLeast := Rat.le_floor_iff.mpr low
    have atMost := Rat.floor_lt_iff.mpr high
    omega
  have numerator : 0 ≤ (rational s n e).num :=
    Rat.num_nonneg.mpr (Rat.le_trans (Rat.intCast_nonneg.mpr natural) low)
  rw [truncate, value]
  dsimp only
  rw [Int.tdiv_eq_ediv_of_nonneg numerator, ← Rat.floor_def, floor]

/-- The number of a quotient below 2^53, in units of its last place. -/
theorem truncate_ofRat_div {p q k m : Nat} (bounds : IsAt p q k) (narrow : k ≤ 52)
    (low : m * 1 <<< (52 - k) ≤ significand p q k)
    (high : significand p q k < (m + 1) * 1 <<< (52 - k)) (negativeZero : Bool)
    (least greatest : Int) :
    (ofRat negativeZero ((p : Rat) / (q : Rat))).truncate least greatest =
      max least (min greatest m) := by
  have finite := toRat?_ofRat_div bounds (by omega) negativeZero
  have unit : (0 : Rat) < (2 : Rat) ^ (52 - k) := Rat.pow_pos (by decide)
  have units (n : Nat) : ((n * 1 <<< (52 - k) : Nat) : Rat) * (2 : Rat) ^ ((k : Int) - 52) = n := by
    have back : (k : Int) - 52 = -((52 - k : Nat) : Int) := by omega
    rw [Nat.one_shiftLeft, Rat.natCast_mul, Rat.natCast_pow, back, Rat.zpow_neg, Rat.zpow_natCast,
      Rat.mul_assoc, Rat.natCast_ofNat, Rat.mul_inv_cancel _ (Rat.ne_of_gt unit), Rat.mul_one]
  have scale : (0 : Rat) < (2 : Rat) ^ ((k : Int) - 52) := Rat.zpow_pos (by decide)
  refine truncate_of_between finite (Int.natCast_nonneg m) ?_ ?_ least greatest
  · rw [Rat.intCast_natCast, ← units m]
    exact Rat.mul_le_mul_of_nonneg_right (Rat.natCast_le_natCast.mpr low) (Rat.le_of_lt scale)
  · rw [← Int.natCast_succ, Rat.intCast_natCast, ← units (m + 1)]
    exact Rat.mul_lt_mul_of_pos_right (Rat.natCast_lt_natCast.mpr high) scale

end Binary64

/-! ## Where the mean falls short -/

/-- The span is beyond 2^53 and rounded down by one, and what one is to the number of steps is more
than half a unit of the last place of the step. -/
def FallsShort (count step : Nat) : Prop :=
  1 <<< 53 < step * count ∧ step * count % 4 = 1 ∧ count * 1 <<< step.log2 < 1 <<< 53

instance (count step : Nat) : Decidable (FallsShort count step) :=
  inferInstanceAs (Decidable (_ ∧ _ ∧ _))

/-- The integer part of the mean of so many steps. -/
def meanStep (count step : Nat) : Nat := if FallsShort count step then step - 1 else step

/-- The mean of equal steps does not exceed the step. -/
theorem meanStep_le (count step : Nat) : meanStep count step ≤ step := by
  rw [meanStep]
  split
  · exact Nat.sub_le step 1
  · exact Nat.le_refl step

/-- A step is its mean exactly if it does not fall short. -/
theorem meanStep_eq_iff {count step : Nat} :
    meanStep count step = step ↔ ¬FallsShort count step := by
  rw [meanStep]
  split
  · next short =>
    have great := short.1
    have positive : step ≠ 0 := by
      rintro rfl
      omega
    exact iff_of_false (by omega) (not_not_intro short)
  · next exact => exact iff_of_true rfl exact

namespace BinaryFormat

variable {count step : Nat}

/-- Steps that make up an odd span beyond 2^53. -/
structure IsOdd (count step : Nat) : Prop where
  enough : 2 ≤ count
  steep : 2 ≤ step
  great : 1 <<< 53 < step * count
  span : step * count ≤ 1 <<< 54
  odd : step * count % 2 = 1

/-- Where the parts of an odd span lie: the step is between the powers of two at its leading bit, and
there are more steps than it has units of its last place in one. -/
structure IsOdd.Parts (count step k : Nat) : Prop where
  narrow : k ≤ 52
  low : 1 <<< k < step
  high : step < 1 <<< (k + 1)
  many : 1 <<< (52 - k) < count
  odd : count % 2 = 1
  enough : 3 ≤ count

/-- The parts of an odd span lie at the leading bit of its step. -/
theorem IsOdd.parts (span : IsOdd count step) : IsOdd.Parts count step step.log2 := by
  have steep := span.steep
  have factors := Nat.mul_mod step count 2
  rw [span.odd] at factors
  have oddStep : step % 2 = 1 := by
    rcases Nat.mod_two_eq_zero_or_one step with even | odd
    · rw [even, Nat.zero_mul] at factors
      cases factors
    · exact odd
  have oddCount : count % 2 = 1 := by rwa [oddStep, Nat.one_mul, Nat.mod_mod, eq_comm] at factors
  have enough : 3 ≤ count := by
    have := span.enough
    omega
  have small : step < 1 <<< 53 := by
    have := Nat.mul_le_mul_left step enough
    have := span.span
    omega
  have narrow : step.log2 ≤ 52 := log2_le_of_lt (by omega) small
  have low := one_shiftLeft_log2_le (n := step) (by omega)
  have high := lt_one_shiftLeft_log2 step
  have below : step.log2 ≠ 0 := by
    intro zero
    rw [zero] at high
    omega
  have even : 1 <<< step.log2 % 2 = 0 := by
    obtain ⟨l, place⟩ := Nat.exists_eq_succ_of_ne_zero below
    rw [place, ← one_shiftLeft_mul l 1]
    exact Nat.mul_mod_left _ 2
  have many : 1 <<< (52 - step.log2) < count := by
    refine Nat.lt_of_not_le fun few => ?_
    have product : step * count < 1 <<< (step.log2 + 1) * 1 <<< (52 - step.log2) :=
      calc step * count ≤ step * 1 <<< (52 - step.log2) := Nat.mul_le_mul_left _ few
        _ < 1 <<< (step.log2 + 1) * 1 <<< (52 - step.log2) :=
          Nat.mul_lt_mul_of_pos_right high (one_shiftLeft_pos _)
    rw [one_shiftLeft_mul, show step.log2 + 1 + (52 - step.log2) = 53 by omega] at product
    exact Nat.lt_asymm product span.great
  exact ⟨narrow, by omega, high, many, oddCount, enough⟩

variable {k : Nat}

/-- There are fewer steps than half a unit has parts exactly if they are short of 2^53 in the binary
place of the step. -/
theorem IsOdd.Parts.lt_iff (parts : IsOdd.Parts count step k) :
    count * 1 <<< k < 1 <<< 53 ↔ count < 2 * 1 <<< (52 - k) := by
  have narrow := parts.narrow
  have halves : 2 * 1 <<< (52 - k) * 1 <<< k = 1 <<< 53 := by
    rw [Nat.mul_assoc, one_shiftLeft_mul, show 52 - k + k = 52 by omega]
    rfl
  rw [← halves, Nat.mul_lt_mul_right (one_shiftLeft_pos k)]

/-- A span that was rounded down is divided into steps, or into something less. -/
theorem IsOdd.Parts.below (parts : IsOdd.Parts count step k) :
    IsAt (step * count - 1) count k ∧ significand (step * count - 1) count k =
      if count * 1 <<< k < 1 <<< 53 then step * 1 <<< (52 - k) - 1 else step * 1 <<< (52 - k) := by
  have low := parts.low
  have high := parts.high
  have many := parts.many
  have odd := parts.odd
  have unit := one_shiftLeft_pos (52 - k)
  have whole : step * count = count * (step - 1) + count := by
    rw [Nat.mul_sub_one, Nat.sub_add_cancel (Nat.le_mul_of_pos_right _ (by omega)), Nat.mul_comm]
  have lies : IsAt (step * count - 1) count k := by
    constructor
    · omega
    · have := Nat.mul_le_mul_left count (Nat.le_sub_one_of_lt low)
      omega
    · calc step * count - 1 < step * count := by omega
        _ = count * step := Nat.mul_comm _ _
        _ ≤ count * 1 <<< (k + 1) := Nat.mul_le_mul_left _ (Nat.le_of_lt high)
  refine ⟨lies, ?_⟩
  have units : (step * count - 1) <<< (52 - k) =
      count * (step * 1 <<< (52 - k) - 1) + (count - 1 <<< (52 - k)) := by
    have steps : count ≤ count * (step * 1 <<< (52 - k)) :=
      Nat.le_mul_of_pos_right _ (Nat.mul_pos (by omega) unit)
    rw [shiftLeft_eq_mul, Nat.sub_mul, Nat.one_mul, Nat.mul_sub_one, Nat.mul_comm step count,
      Nat.mul_assoc]
    omega
  rw [significand_of_le parts.narrow, nearest_of_parts units (by omega)]
  simp only [parts.lt_iff]
  have positive := Nat.mul_pos (Nat.zero_lt_of_lt low) unit
  generalize 1 <<< (52 - k) = unit at many positive ⊢
  by_cases half : count < 2 * unit
  · rw [if_pos half, if_pos (by omega)]
  · rw [if_neg half, if_neg (by omega), if_pos (by omega)]
    omega

/-- A span that was rounded up is divided into steps, or into something more. -/
theorem IsOdd.Parts.above (parts : IsOdd.Parts count step k) :
    IsAt (step * count + 1) count k ∧ significand (step * count + 1) count k =
      if count * 1 <<< k < 1 <<< 53 then step * 1 <<< (52 - k) + 1 else step * 1 <<< (52 - k) := by
  have low := parts.low
  have high := parts.high
  have many := parts.many
  have odd := parts.odd
  have enough := parts.enough
  have lies : IsAt (step * count + 1) count k := by
    constructor
    · omega
    · calc count * 1 <<< k ≤ count * step := Nat.mul_le_mul_left _ (Nat.le_of_lt low)
        _ = step * count := Nat.mul_comm _ _
        _ ≤ step * count + 1 := Nat.le_succ _
    · calc step * count + 1 < step * count + count := by omega
        _ = count * (step + 1) := by rw [Nat.mul_add, Nat.mul_one, Nat.mul_comm]
        _ ≤ count * 1 <<< (k + 1) := Nat.mul_le_mul_left _ high
  refine ⟨lies, ?_⟩
  have units : (step * count + 1) <<< (52 - k) =
      count * (step * 1 <<< (52 - k)) + 1 <<< (52 - k) := by
    rw [shiftLeft_eq_mul, Nat.add_mul, Nat.one_mul, Nat.mul_comm step, Nat.mul_assoc]
  rw [significand_of_le parts.narrow, nearest_of_parts units many]
  simp only [parts.lt_iff]
  by_cases half : count < 2 * 1 <<< (52 - k)
  · rw [if_pos half, if_pos half, if_neg (Nat.lt_asymm half)]
  · rw [if_pos (by omega), if_neg half]

end BinaryFormat

namespace Binary64

open BinaryFormat

variable {count step : Nat}

/-- The number of a natural number denotes the one it was rounded to. -/
theorem toRat?_ofInt_natCast {n : Nat} (bounded : n ≤ 1 <<< 54) :
    (ofInt n).toRat? = some (nearestOf n : Rat) := by
  rw [toRat?_ofInt (i := n) (by omega), nearestInt, if_neg (by omega), Int.natAbs_natCast,
    Rat.intCast_natCast]

/-- Any number of steps of one make one, also if it is rounded. -/
theorem denotes_div_self (positive : count ≠ 0) (bounded : count ≤ 1 <<< 54) :
    ((ofInt count).div (ofInt count)).Denotes 1 := by
  have number := toRat?_ofInt_natCast bounded
  have nonzero : (nearestOf count : Rat) ≠ 0 :=
    Rat.ne_of_gt (Rat.natCast_pos.mpr (nearestOf_pos positive))
  obtain ⟨negativeZero, quotient⟩ := exists_div_eq number number nonzero
  rw [quotient, Rat.div_def, Rat.mul_inv_cancel _ nonzero]
  exact denotes_ofRat negativeZero (i := 1) (by decide)

/-- The span is divided as it was rounded, by the number of steps as it is. -/
theorem exists_div_span (positive : step * count ≠ 0) (span : step * count ≤ 1 <<< 54)
    (bounded : count ≤ 1 <<< 53) : ∃ negativeZero,
      (ofInt (step * count : Nat)).div (ofInt count) =
        ofRat negativeZero ((nearestOf (step * count) : Rat) / (count : Rat)) := by
  have dividend := toRat?_ofInt_natCast span
  have divisor := denotes_ofInt (i := (count : Nat)) (by rwa [Int.natAbs_natCast])
  have nonzero : ((count : Int) : Rat) ≠ 0 := by
    have many : count ≠ 0 := fun none => positive (by rw [none, Nat.mul_zero])
    rw [← Rat.intCast_zero]
    exact fun same => many (Int.natCast_eq_zero.mp (Rat.intCast_inj.mp same))
  obtain ⟨negativeZero, quotient⟩ := exists_div_eq dividend divisor nonzero
  exact ⟨negativeZero, by rw [quotient, Rat.intCast_natCast]⟩

/-- A span that is not rounded is divided into its steps. -/
theorem truncate_mean_of_eq (exact : nearestOf (step * count) = step * count)
    (positive : step * count ≠ 0) (span : step * count ≤ 1 <<< 54) (enough : 2 ≤ count)
    (bounded : count ≤ 1 <<< 53) (least greatest : Int) :
    ((ofInt (step * count : Nat)).div (ofInt count)).truncate least greatest =
      max least (min greatest step) := by
  obtain ⟨negativeZero, quotient⟩ := exists_div_span positive span bounded
  have nonzero : (count : Rat) ≠ 0 := Rat.ne_of_gt (Rat.natCast_pos.mpr (by omega))
  have small : step ≤ 1 <<< 53 := by
    have := Nat.mul_le_mul_left step enough
    omega
  rw [quotient, exact, Rat.natCast_mul, Rat.mul_div_cancel nonzero, ← Rat.intCast_natCast]
  exact (denotes_ofRat negativeZero (by rwa [Int.natAbs_natCast])).truncate least greatest

/-- An odd span beyond 2^53 is divided into its steps, or what is left of them. -/
theorem truncate_mean_of_odd (odd : IsOdd count step) (least greatest : Int) :
    ((ofInt (step * count : Nat)).div (ofInt count)).truncate least greatest =
      max least (min greatest (meanStep count step)) := by
  have parts := odd.parts
  have span := odd.span
  have great := odd.great
  have enough := parts.enough
  have half := parts.lt_iff
  have unit := one_shiftLeft_pos (52 - step.log2)
  have bounded : count ≤ 1 <<< 53 := by
    have := Nat.mul_le_mul_right count odd.steep
    omega
  obtain ⟨negativeZero, quotient⟩ := exists_div_span (by omega) span bounded
  have odd := odd.odd
  rw [quotient, nearestOf_eq_of_le span, if_neg (by omega)]
  have positive := Nat.zero_lt_of_lt parts.low
  have units := Nat.le_mul_of_pos_left (1 <<< (52 - step.log2)) positive
  by_cases down : step * count % 4 = 1
  · obtain ⟨lies, divided⟩ := parts.below
    rw [if_pos down]
    by_cases short : count * 1 <<< step.log2 < 1 <<< 53
    · rw [if_pos short] at divided
      rw [meanStep, if_pos ⟨great, down, short⟩]
      refine truncate_ofRat_div lies parts.narrow ?_ ?_ negativeZero least greatest
      · rw [divided, Nat.sub_one_mul]
        omega
      · rw [divided, Nat.sub_add_cancel positive]
        exact Nat.sub_one_lt_of_le (Nat.lt_of_lt_of_le unit units) (Nat.le_refl _)
    · rw [if_neg short] at divided
      rw [meanStep_eq_iff.mpr fun few => short few.2.2]
      refine truncate_ofRat_div lies parts.narrow ?_ ?_ negativeZero least greatest
      · exact Nat.le_of_eq divided.symm
      · rw [divided, Nat.succ_mul]
        exact Nat.lt_add_of_pos_right unit
  · obtain ⟨lies, divided⟩ := parts.above
    have exact : meanStep count step = step := meanStep_eq_iff.mpr fun short => down short.2.1
    rw [if_neg down, exact]
    refine truncate_ofRat_div lies parts.narrow ?_ ?_ negativeZero least greatest
    · rw [divided]
      split
      · omega
      · exact Nat.le_refl _
    · rw [divided, Nat.succ_mul]
      split
      · omega
      · omega

/-- The mean of equal steps is their step, unless it falls short. -/
theorem truncate_mean (enough : 2 ≤ count) (span : step * count ≤ 1 <<< 54) (least greatest : Int) :
    ((ofInt (step * count : Nat)).div (ofInt count)).truncate least greatest =
      max least (min greatest (meanStep count step)) := by
  by_cases flat : step = 0
  · have exact : meanStep count 0 = 0 := Nat.le_zero.mp (meanStep_le count 0)
    subst flat
    rw [Nat.zero_mul, Int.natCast_zero, zero_div_ofInt (by omega), exact]
    exact (denotes_ofInt (by decide)).truncate least greatest
  by_cases single : step = 1
  · have exact : meanStep count 1 = 1 := meanStep_eq_iff.mpr fun short => by
      obtain ⟨great, -, few⟩ := short
      rw [Nat.one_mul] at great
      rw [show Nat.log2 1 = 0 by decide, Nat.shiftLeft_zero, Nat.mul_one] at few
      exact Nat.lt_asymm great few
    subst single
    rw [Nat.one_mul] at span ⊢
    rw [exact]
    exact (denotes_div_self (by omega) span).truncate least greatest
  · have bounded : count ≤ 1 <<< 53 := by
      have := Nat.mul_le_mul_right count (show 2 ≤ step by omega)
      omega
    by_cases whole : step * count ≤ 1 <<< 53 ∨ step * count % 2 = 0
    · have exact : meanStep count step = step := meanStep_eq_iff.mpr fun short => by
        obtain ⟨great, odd, -⟩ := short
        omega
      rw [exact]
      have positive := Nat.mul_ne_zero flat (show count ≠ 0 by omega)
      refine truncate_mean_of_eq ?_ positive span enough bounded least greatest
      rw [nearestOf_eq_of_le span, if_pos whole]
    · exact truncate_mean_of_odd ⟨enough, by omega, by omega, span, by omega⟩ least greatest

end Binary64

end SignalAccess

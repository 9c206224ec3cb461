import SignalAccess.Proofs.Number.Rounding

/-!
# Integers as floating point numbers

The number of an integer is the nearest integer of 53 significant bits, so an integer of up to 2^53 is
its own number. Arithmetic on the numbers of such integers is that of the integers. A sum and a
difference are exact before they are rounded, and a quotient is where the division leaves no
remainder. None of them is a negative zero, so the results are again the numbers of integers, bit for
bit.
-/

namespace SignalAccess

namespace BinaryFormat

/-! ## The nearest integer of 53 significant bits -/

/-- The unit of the last place of an integer. -/
def unitOf (n : Nat) : Nat := 1 <<< (n.log2 - 52)

/-- The nearest integer with 53 significant bits. -/
def nearestOf (n : Nat) : Nat := nearest n (unitOf n) * unitOf n

variable {n : Nat}

/-- The unit in which a number is rounded is never zero. -/
theorem unitOf_ne_zero (n : Nat) : unitOf n ≠ 0 := Nat.ne_of_gt (one_shiftLeft_pos _)

/-- Integers in units of their last place are exact, and no others. -/
theorem nearestOf_eq_iff : nearestOf n = n ↔ unitOf n ∣ n := by
  constructor
  · intro same
    exact ⟨nearest n (unitOf n), by rw [Nat.mul_comm]; exact same.symm⟩
  · rintro ⟨m, whole⟩
    have back := nearest_mul (unitOf_ne_zero n) m
    rw [Nat.mul_comm, ← whole] at back
    rw [nearestOf, back, Nat.mul_comm, ← whole]

/-- Numbers below 2^53 are held in ones. -/
theorem unitOf_of_lt (small : n < 1 <<< 53) : unitOf n = 1 := by
  by_cases zero : n = 0
  · subst zero
    rfl
  · have short := log2_le_of_lt zero small
    rw [unitOf, Nat.sub_eq_zero_of_le short]
    rfl

/-- An integer that fits the significand is exact, and so is the first one that does not. -/
theorem nearestOf_of_le (small : n ≤ 1 <<< 53) : nearestOf n = n := by
  rw [nearestOf_eq_iff]
  by_cases least : n < 1 <<< 53
  · rw [unitOf_of_lt least]
    exact Nat.one_dvd n
  · obtain rfl : n = 1 <<< 53 := by omega
    decide

/-- An integer of 54 bits keeps its value if it is even; otherwise it is rounded to a multiple of
four. -/
theorem nearestOf_eq_of_le (bounded : n ≤ 1 <<< 54) :
    nearestOf n =
      if n ≤ 1 <<< 53 ∨ n % 2 = 0 then n else if n % 4 = 1 then n - 1 else n + 1 := by
  by_cases small : n ≤ 1 <<< 53
  · rw [if_pos (.inl small), nearestOf_of_le small]
  · by_cases greatest : n = 1 <<< 54
    · subst greatest
      decide
    · have atLeast := le_log2_of_le (n := n) (k := 53) (by omega)
      have atMost := log2_le_of_lt (n := n) (k := 53) (by omega) (by omega)
      have two : unitOf n = 2 := by
        rw [unitOf, show n.log2 - 52 = 1 by omega]
        rfl
      rw [nearestOf, two, nearest]
      repeat' split
      all_goals omega

/-- Rounding keeps the leading bit, or moves it up. -/
theorem one_shiftLeft_log2_le_nearestOf (positive : n ≠ 0) : 1 <<< n.log2 ≤ nearestOf n := by
  have low := one_shiftLeft_log2_le positive
  by_cases short : n.log2 ≤ 52
  · have small : n < 1 <<< 53 :=
      Nat.lt_of_lt_of_le (lt_one_shiftLeft_log2 n) (one_shiftLeft_le (by omega))
    rwa [nearestOf_of_le (Nat.le_of_lt small)]
  · have parts : 1 <<< 52 * unitOf n = 1 <<< n.log2 := by
      rw [unitOf, one_shiftLeft_mul, show 52 + (n.log2 - 52) = n.log2 by omega]
    have leading := le_nearest (unitOf_ne_zero n) (Nat.le_trans (Nat.le_of_eq parts) low)
    rw [← parts]
    exact Nat.mul_le_mul_right _ leading

/-- No positive number is rounded to zero. -/
theorem nearestOf_pos (positive : n ≠ 0) : 0 < nearestOf n :=
  Nat.lt_of_lt_of_le (one_shiftLeft_pos _) (one_shiftLeft_log2_le_nearestOf positive)

/-- Rounded up to 2^53 are the integers up to there and the next one. -/
theorem nearestOf_le_iff : nearestOf n ≤ 1 <<< 53 ↔ n ≤ 1 <<< 53 + 1 := by
  by_cases bounded : n ≤ 1 <<< 54
  · rw [nearestOf_eq_of_le bounded]
    repeat' split
    all_goals omega
  · have leading := one_shiftLeft_log2_le_nearestOf (n := n) (by omega)
    have atLeast := le_log2_of_le (n := n) (k := 54) (by omega)
    have := one_shiftLeft_le atLeast
    omega

/-- The significand of an integer, in its units, is the nearest integer. -/
theorem rational_significand (negative : Bool) (n : Nat) :
    Binary64.rational negative (significand n 1 n.log2) ((n.log2 : Int) - 52) =
      if negative then -(nearestOf n : Rat) else nearestOf n := by
  have magnitude : (significand n 1 n.log2 : Rat) * (2 : Rat) ^ ((n.log2 : Int) - 52) =
      nearestOf n := by
    by_cases great : 52 ≤ n.log2
    · rw [significand, if_pos great, ← unitOf, nearestOf, Rat.natCast_mul,
        show (n.log2 : Int) - 52 = ((n.log2 - 52 : Nat) : Int) by omega, Rat.zpow_natCast, unitOf,
        Nat.one_shiftLeft, Rat.natCast_pow, Rat.natCast_ofNat]
    · have back : (n.log2 : Int) - 52 = -((52 - n.log2 : Nat) : Int) := by omega
      have small : n < 1 <<< 53 :=
        Nat.lt_of_lt_of_le (lt_one_shiftLeft_log2 n) (one_shiftLeft_le (by omega))
      rw [significand, if_neg great, nearest_one, nearestOf_of_le (Nat.le_of_lt small),
        Nat.shiftLeft_eq, Rat.natCast_mul, Rat.natCast_pow, back, Rat.zpow_neg, Rat.zpow_natCast,
        Rat.mul_assoc, Rat.natCast_ofNat,
        Rat.mul_inv_cancel _ (Rat.ne_of_gt (Rat.pow_pos (by decide))), Rat.mul_one]
  simp [Binary64.rational, magnitude]

/-- An integer is rounded without its sign. -/
theorem round_intCast (negativeZero : Bool) (i : Int) :
    double.round negativeZero i =
      signOf (decide (i < 0 ∨ i = 0 ∧ negativeZero = true)) + double.roundQuotient i.natAbs 1 := by
  have negative : ((i : Rat) < 0 ∨ (i : Rat) = 0 ∧ negativeZero = true) ↔
      (i < 0 ∨ i = 0 ∧ negativeZero = true) := by
    rw [Rat.intCast_neg_iff, ← Rat.intCast_zero, Rat.intCast_inj]
  rw [round, Rat.num_intCast, Rat.den_intCast, signOf]
  simp only [negative, decide_eq_true_eq]
  split
  · rfl
  · exact (Nat.zero_add _).symm

end BinaryFormat

namespace Binary64

open BinaryFormat

/-! ## The number of an integer -/

/-- The bits of a floating point number are the ones it was made from. -/
theorem toNat_ofBits {bits : Nat} (fits : bits < UInt64.size) : (ofBits bits).bits.toNat = bits := by
  rw [ofBits, UInt64.toNat_ofNat', Nat.mod_eq_of_lt fits]

/-- A floating point number denotes what its bits are decoded to. -/
theorem value_ofBits {bits : Nat} (fits : bits < UInt64.size) :
    (ofBits bits).value = double.decode bits := by
  rw [value, toNat_ofBits fits]

/-- The bits of an integer are its sign and the rounded quotient of its amount by one. -/
theorem ofInt_eq_ofBits (i : Int) :
    ofInt i = ofBits (signOf (decide (i < 0)) + double.roundQuotient i.natAbs 1) := by
  rw [ofInt, ofRat, round_intCast]
  simp

/-- An integer is rounded to its number, unless a zero is to be negative. -/
theorem ofRat_intCast {negativeZero : Bool} {i : Int} (sign : i = 0 → negativeZero = false) :
    ofRat negativeZero i = ofInt i := by
  have unsigned : ¬(i = 0 ∧ negativeZero = true) := by
    rintro ⟨zero, negative⟩
    rw [sign zero] at negative
    cases negative
  rw [ofInt_eq_ofBits, ofRat, round_intCast]
  simp only [unsigned, or_false]

/-- A sign and a rounded amount fit into 64 bits together. -/
theorem fits_of_signOf (negative : Bool) (n : Nat) :
    signOf negative + double.roundQuotient n 1 < UInt64.size := by
  have sign := signOf_eq negative
  have bounded := roundQuotient_le_infinity n 1
  rw [signBit_double] at sign
  rw [infinity_double] at bounded
  rw [size_eq_units]
  omega

/-- The integer that the number of an integer denotes. -/
def nearestInt (i : Int) : Int := if i < 0 then -(nearestOf i.natAbs : Int) else nearestOf i.natAbs

/-- An integer within 2^53 is its own nearest. -/
theorem nearestInt_of_le {i : Int} (small : i.natAbs ≤ 1 <<< 53) : nearestInt i = i := by
  rw [nearestInt, nearestOf_of_le small]
  split
  · omega
  · omega

/-- The nearest of an integer within 2^54 is within 2^54 too. -/
theorem natAbs_nearestInt_le {i : Int} (bounded : i.natAbs ≤ 1 <<< 54) :
    (nearestInt i).natAbs ≤ 1 <<< 54 := by
  rw [nearestInt, nearestOf_eq_of_le bounded]
  repeat' split
  all_goals omega

/-- Two integers from zero on that are rounded to the same number are the same if both of them
together are no more than 2^54. -/
theorem nearestInt_eq_iff {i j : Int} (left : 0 ≤ i) (right : 0 ≤ j)
    (bounded : i + j ≤ (1 <<< 54 : Nat)) : nearestInt i = nearestInt j ↔ i = j := by
  refine ⟨?_, congrArg nearestInt⟩
  rw [nearestInt, nearestInt, if_neg (by omega), if_neg (by omega),
    nearestOf_eq_of_le (n := i.natAbs) (by omega), nearestOf_eq_of_le (n := j.natAbs) (by omega)]
  repeat' split
  all_goals omega

/-- The number of an integer denotes the nearest integer of 53 significant bits. -/
theorem value_ofInt_nearest {i : Int} (bounded : i.natAbs ≤ 1 <<< 64) : ∃ significand exponent,
    (ofInt i).value = .finite (decide (i < 0)) significand exponent ∧
      rational (decide (i < 0)) significand exponent = nearestInt i := by
  rw [ofInt_eq_ofBits, value_ofBits (fits_of_signOf _ _)]
  by_cases zero : i = 0
  · subst zero
    exact ⟨0, double.minExponent, by decide, by simp [rational, nearestInt, nearestOf_of_le]⟩
  · have positive : i.natAbs ≠ 0 := Int.natAbs_ne_zero.mpr zero
    have finite := log2_le_of_lt (k := 64) positive (by omega)
    have bounds := isAt_one positive
    obtain ⟨leading, rounded⟩ := significand_bounds bounds
    obtain ⟨s, e, decoded, is⟩ :=
      decode_of_rounded (decide (i < 0)) leading rounded (by omega : i.natAbs.log2 + 1022 ≤ 2044)
    have unbiased : double.minExponent + (i.natAbs.log2 + 1022 : Nat) =
        (i.natAbs.log2 : Int) - 52 := by
      rw [minExponent_double]
      omega
    refine ⟨s, e, ?_, ?_⟩
    · rw [roundQuotient_eq bounds (by omega), decoded]
    · rw [is, unbiased, rational_significand, nearestInt]
      by_cases below : i < 0
      · rw [decide_eq_true below, if_pos rfl, if_pos below, Rat.intCast_neg, Rat.intCast_natCast]
      · rw [decide_eq_false below, if_neg Bool.false_ne_true, if_neg below, Rat.intCast_natCast]

/-- An integer of up to 2^53 is what its number denotes. -/
theorem value_ofInt {i : Int} (small : i.natAbs ≤ 1 <<< 53) : ∃ significand exponent,
    (ofInt i).value = .finite (decide (i < 0)) significand exponent ∧
      rational (decide (i < 0)) significand exponent = i := by
  obtain ⟨s, e, value, is⟩ := value_ofInt_nearest (i := i) (by omega)
  exact ⟨s, e, value, by rw [is, nearestInt_of_le small]⟩

/-! ## Arithmetic on integers -/

variable {i j : Int}

/-- The other sign makes the negative of a rational number. -/
theorem rational_not (negative : Bool) (significand : Nat) (exponent : Int) :
    rational (!negative) significand exponent = -rational negative significand exponent := by
  cases negative with
  | false => rfl
  | true => exact (Rat.neg_neg _).symm

/-- Integers within 2^53 are subtracted exactly. -/
theorem sub_ofInt (left : i.natAbs ≤ 1 <<< 53) (right : j.natAbs ≤ 1 <<< 53) :
    (ofInt i).sub (ofInt j) = ofInt (i - j) := by
  obtain ⟨m, d, first, firstIs⟩ := value_ofInt left
  obtain ⟨n, e, second, secondIs⟩ := value_ofInt right
  rw [sub, first, second, negate, addValues, rational_not, firstIs, secondIs, ← Rat.sub_eq_add_neg,
    ← Rat.intCast_sub]
  refine ofRat_intCast fun zero => ?_
  rw [Bool.and_eq_false_iff, decide_eq_false_iff_not, Bool.not_eq_false', decide_eq_true_eq]
  omega

/-- A quotient by a positive integer is exact where nothing remains. -/
theorem div_ofInt {n : Nat} (dividend : (i * n).natAbs ≤ 1 <<< 53) (divisor : n ≤ 1 <<< 53)
    (positive : n ≠ 0) : (ofInt (i * n)).div (ofInt n) = ofInt i := by
  obtain ⟨m, d, first, firstIs⟩ := value_ofInt dividend
  obtain ⟨k, e, second, secondIs⟩ := value_ofInt (i := n) divisor
  have nonzero : ((n : Int) : Rat) ≠ 0 := by
    rw [← Rat.intCast_zero]
    exact fun same => positive (Int.natCast_eq_zero.mp (Rat.intCast_inj.mp same))
  have significant : k ≠ 0 := by
    rintro rfl
    rw [← secondIs] at nonzero
    simp [rational] at nonzero
  have quotient : ((i * n : Int) : Rat) / (n : Int) = i := by
    rw [Rat.intCast_mul, Rat.mul_div_cancel nonzero]
  rw [div, first, second]
  dsimp only
  rw [if_neg significant, firstIs, secondIs, quotient]
  refine ofRat_intCast ?_
  rintro rfl
  simp

/-- Zero divided by any positive integer is zero, also by one that is rounded. -/
theorem zero_div_ofInt {n : Nat} (positive : n ≠ 0) : (ofInt 0).div (ofInt n) = ofInt 0 := by
  obtain ⟨m, d, dividend, is⟩ := value_ofInt (i := 0) (by decide)
  have divisor : (ofInt n).value = double.decode (double.roundQuotient n 1) := by
    have natural : ¬(n : Int) < 0 := by omega
    rw [ofInt_eq_ofBits, value_ofBits (fits_of_signOf _ _), decide_eq_false natural,
      Int.natAbs_natCast, signOf_false, Nat.zero_add]
  have nonzero := roundQuotient_one_ne_zero positive
  have bounded := roundQuotient_le_infinity n 1
  rcases decode_of_pos nonzero bounded with infinite | ⟨k, e, finite, significant⟩
  · rw [div, dividend, divisor, infinite]
    exact ofRat_intCast (i := 0) fun _ => by decide
  · have quotient : ((0 : Int) : Rat) / rational false k e = (0 : Int) := by
      rw [Rat.div_def, Rat.intCast_zero, Rat.zero_mul]
    rw [div, dividend, divisor, finite]
    dsimp only
    rw [if_neg significant, is, quotient]
    exact ofRat_intCast fun _ => by decide

/-- The magnitude of an integer has the bits of its number without the sign, also that of zero. -/
theorem abs_ofRat_intCast (negativeZero : Bool) (i : Int) :
    (ofRat negativeZero i).abs = ofInt i.natAbs := by
  have natural : ¬(i.natAbs : Int) < 0 := by omega
  have sign := signOf_eq (decide (i < 0 ∨ i = 0 ∧ negativeZero = true))
  have bounded := roundQuotient_le_infinity i.natAbs 1
  rw [ofInt_eq_ofBits, ofRat, round_intCast, abs, toNat_ofBits (fits_of_signOf _ _),
    decide_eq_false natural, Int.natAbs_natCast, signOf_false]
  rw [signBit_double] at sign ⊢
  rw [infinity_double] at bounded
  congr 1
  omega

/-- The number for an integer without its sign is that for the amount of the integer. -/
theorem abs_ofInt (i : Int) : (ofInt i).abs = ofInt i.natAbs := abs_ofRat_intCast false i

/-! ## Numbers that denote rationals

The results of arithmetic on finite numbers are known but for the sign of a zero, which does not
matter to what they denote. -/

section Finite

variable {x y : Binary64} {p q : Rat}

/-- A floating point number is a rational one exactly if it is finite, and then the one of its
parts. -/
theorem toRat?_eq_some_iff : x.toRat? = some q ↔ ∃ negative significand exponent,
    x.value = .finite negative significand exponent ∧ rational negative significand exponent = q := by
  rw [toRat?]
  constructor
  · intro finite
    split at finite
    · next value => exact ⟨_, _, _, value, Option.some.inj finite⟩
    · cases finite
  · rintro ⟨s, m, e, value, is⟩
    rw [value, ← is]

/-- A sum of finite numbers is the exact sum, rounded once. -/
theorem exists_add_eq (left : x.toRat? = some p) (right : y.toRat? = some q) :
    ∃ negativeZero, x.add y = ofRat negativeZero (p + q) := by
  obtain ⟨s, m, d, first, rfl⟩ := toRat?_eq_some_iff.mp left
  obtain ⟨t, n, e, second, rfl⟩ := toRat?_eq_some_iff.mp right
  exact ⟨s && t, by rw [add, first, second, addValues]⟩

/-- A difference of finite numbers is the exact difference, rounded once. -/
theorem exists_sub_eq (left : x.toRat? = some p) (right : y.toRat? = some q) :
    ∃ negativeZero, x.sub y = ofRat negativeZero (p - q) := by
  obtain ⟨s, m, d, first, rfl⟩ := toRat?_eq_some_iff.mp left
  obtain ⟨t, n, e, second, rfl⟩ := toRat?_eq_some_iff.mp right
  exact ⟨s && !t, by rw [sub, first, second, negate, addValues, rational_not, Rat.sub_eq_add_neg]⟩

/-- A product of finite numbers is the exact product, rounded once. -/
theorem exists_mul_eq (left : x.toRat? = some p) (right : y.toRat? = some q) :
    ∃ negativeZero, x.mul y = ofRat negativeZero (p * q) := by
  obtain ⟨s, m, d, first, rfl⟩ := toRat?_eq_some_iff.mp left
  obtain ⟨t, n, e, second, rfl⟩ := toRat?_eq_some_iff.mp right
  exact ⟨s != t, by rw [mul, first, second]⟩

/-- A quotient of finite numbers is the exact quotient, rounded once, unless the divisor is zero. -/
theorem exists_div_eq (left : x.toRat? = some p) (right : y.toRat? = some q) (nonzero : q ≠ 0) :
    ∃ negativeZero, x.div y = ofRat negativeZero (p / q) := by
  obtain ⟨s, m, d, first, rfl⟩ := toRat?_eq_some_iff.mp left
  obtain ⟨t, n, e, second, rfl⟩ := toRat?_eq_some_iff.mp right
  have significant : n ≠ 0 := by
    rintro rfl
    simp [rational] at nonzero
  refine ⟨s != t, ?_⟩
  rw [div, first, second]
  dsimp only
  rw [if_neg significant]

/-- Finite numbers are compared as the rational ones they are. -/
theorem exceeds_eq (left : x.toRat? = some p) (right : y.toRat? = some q) :
    x.exceeds y = decide (q < p) := by
  obtain ⟨s, m, d, first, rfl⟩ := toRat?_eq_some_iff.mp left
  obtain ⟨t, n, e, second, rfl⟩ := toRat?_eq_some_iff.mp right
  rw [exceeds, first, second]

end Finite

/-- An integer of up to 2^64 becomes the nearest one that can be held. -/
theorem toRat?_ofInt (bounded : i.natAbs ≤ 1 <<< 64) :
    (ofInt i).toRat? = some (nearestInt i : Rat) := by
  obtain ⟨m, d, value, is⟩ := value_ofInt_nearest bounded
  exact toRat?_eq_some_iff.mpr ⟨_, m, d, value, is⟩

/-! ## Numbers that denote integers -/

/-- A number that is an integer. Zero is denoted by two of them. -/
def Denotes (x : Binary64) (i : Int) : Prop := x.toRat? = some (i : Rat)

variable {x y : Binary64}

/-- An integer within 2^53 is denoted by its floating point number. -/
theorem denotes_ofInt (small : i.natAbs ≤ 1 <<< 53) : (ofInt i).Denotes i := by
  obtain ⟨m, d, value, is⟩ := value_ofInt small
  exact toRat?_eq_some_iff.mpr ⟨_, m, d, value, is⟩

/-- An integer of up to 2^53 is rounded to a number that denotes it, whatever becomes of zero. -/
theorem denotes_ofRat (negativeZero : Bool) (small : i.natAbs ≤ 1 <<< 53) :
    (ofRat negativeZero i).Denotes i := by
  by_cases zero : i = 0
  · subst zero
    cases negativeZero with
    | false => exact denotes_ofInt small
    | true => exact toRat?_eq_some_iff.mpr ⟨true, 0, double.minExponent, by decide, by simp [rational]⟩
  · rw [ofRat_intCast fun absent => absurd absent zero]
    exact denotes_ofInt small

/-- Integers are different as numbers if they are rounded to different ones. -/
theorem exceeds_abs_sub_ofInt (left : i.natAbs ≤ 1 <<< 54) (right : j.natAbs ≤ 1 <<< 54) :
    ((ofInt i).sub (ofInt j)).abs.exceeds zero = decide (nearestInt i ≠ nearestInt j) := by
  have leftNumber := toRat?_ofInt (i := i) (by omega)
  have rightNumber := toRat?_ofInt (i := j) (by omega)
  obtain ⟨negativeZero, difference⟩ := exists_sub_eq leftNumber rightNumber
  have leftBound := natAbs_nearestInt_le left
  have rightBound := natAbs_nearestInt_le right
  have threshold : zero.Denotes 0 := denotes_ofInt (i := 0) (by decide)
  have magnitude := toRat?_ofInt (i := (nearestInt i - nearestInt j).natAbs) (by omega)
  rw [difference, ← Rat.intCast_sub, abs_ofRat_intCast, exceeds_eq magnitude threshold]
  refine decide_eq_decide.mpr ?_
  rw [Rat.intCast_lt_intCast, nearestInt, if_neg (by omega), Int.natAbs_natCast]
  constructor
  · intro positive same
    rw [same, Int.sub_self, Int.natAbs_zero, nearestOf_of_le (by decide)] at positive
    omega
  · intro different
    have := nearestOf_pos (n := (nearestInt i - nearestInt j).natAbs) (by omega)
    omega

/-- A sum of denoted integers is exact if it lies within 2^53. -/
theorem Denotes.add (left : x.Denotes i) (right : y.Denotes j)
    (small : (i + j).natAbs ≤ 1 <<< 53) : (x.add y).Denotes (i + j) := by
  obtain ⟨negativeZero, sum⟩ := exists_add_eq left right
  rw [sum, ← Rat.intCast_add]
  exact denotes_ofRat negativeZero small

/-- A product of denoted integers is exact if it lies within 2^53. -/
theorem Denotes.mul (left : x.Denotes i) (right : y.Denotes j)
    (small : (i * j).natAbs ≤ 1 <<< 53) : (x.mul y).Denotes (i * j) := by
  obtain ⟨negativeZero, product⟩ := exists_mul_eq left right
  rw [product, ← Rat.intCast_mul]
  exact denotes_ofRat negativeZero small

/-- An integer is its own integer part. -/
theorem Denotes.truncate (denoted : x.Denotes i) (low high : Int) :
    x.truncate low high = max low (min high i) := by
  obtain ⟨s, m, d, finite, is⟩ := toRat?_eq_some_iff.mp denoted
  rw [Binary64.truncate, finite]
  dsimp only
  rw [is, Rat.num_intCast, Rat.den_intCast, Int.natCast_one, Int.tdiv_one]

end Binary64

end SignalAccess

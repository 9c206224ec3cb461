import SignalAccess.Number.Binary

/-!
# Rounding to the nearest number

A quotient that is one at least is rounded to a power of two times a significand of 53 bits: the
natural number nearest to the quotient in units of the last place, the even one of two that are
equally near. The bits that come out denote exactly this product, also where the significand is
rounded up to the next power of two and carries into the exponent. The least numbers, where the units
stop shrinking, are left out.
-/

namespace SignalAccess

namespace BinaryFormat

/-! ## The constants of the wider format

The unit of the fraction is written in digits, so that the bits of a sign, of infinity and of an
exponent are multiples of a numeral. -/

/-- The least exponent of 64-bit numbers. -/
theorem minExponent_double : double.minExponent = -1074 := rfl

/-- The number of fraction bits of 64-bit numbers. -/
theorem fractionBits_double : double.fractionBits = 52 := rfl

/-- One step of the exponent is 2^52 steps of the bits. -/
theorem fractionUnit_double : 1 <<< double.fractionBits = 4503599627370496 := rfl

/-- There are 2^11 values of the exponent's bits. -/
theorem exponentUnit_double : 1 <<< double.exponentBits = 2048 := rfl

/-- The sign stands above exponent and fraction. -/
theorem signBit_double : double.signBit = 2048 * 4503599627370496 := rfl

/-- The bits of infinity are those of the greatest exponent without a fraction. -/
theorem infinity_double : double.infinity = 2047 * 4503599627370496 := rfl

/-- Sign, exponent and fraction take up 64 bits. -/
theorem size_eq_units : UInt64.size = 4096 * 4503599627370496 := rfl

/-- Shifting out the fraction divides the bits by its unit. -/
theorem shiftRight_fractionBits_double (bits : Nat) :
    bits >>> double.fractionBits = bits / 4503599627370496 := by
  rw [Nat.shiftRight_eq_div_pow, fractionBits_double]

/-! ## The nearest natural number -/

/-- Nothing is rounded in a quotient by one. -/
theorem nearest_one (n : Nat) : nearest n 1 = n := by simp [nearest, Nat.mod_one]

/-- The nearest natural number is next to the quotient. -/
theorem nearest_bounds (n d : Nat) : n / d ≤ nearest n d ∧ nearest n d ≤ n / d + 1 := by
  rw [nearest]
  split
  · omega
  · split
    · omega
    · omega

/-- Where nothing remains, nothing is rounded. -/
theorem nearest_mul {d : Nat} (positive : d ≠ 0) (m : Nat) : nearest (m * d) d = m := by
  have whole : m * d / d = m := Nat.mul_div_cancel m (Nat.pos_of_ne_zero positive)
  rw [nearest, Nat.mul_mod_left, whole, if_pos (by omega)]

/-- Rounding takes a fraction as the number it is, however it is written. -/
theorem nearest_mul_mul {c : Nat} (positive : c ≠ 0) (n d : Nat) :
    nearest (c * n) (c * d) = nearest n d := by
  have scale := Nat.pos_of_ne_zero positive
  have quotient : c * n / (c * d) = n / d := Nat.mul_div_mul_left n d scale
  have remainder : 2 * (c * n % (c * d)) = c * (2 * (n % d)) := by
    rw [Nat.mul_mod_mul_left, Nat.mul_left_comm]
  rw [nearest, nearest, quotient, remainder]
  simp only [Nat.mul_lt_mul_left scale]

/-- A number is never rounded below a natural number under it. -/
theorem le_nearest {n d m : Nat} (positive : d ≠ 0) (below : m * d ≤ n) : m ≤ nearest n d :=
  Nat.le_trans ((Nat.le_div_iff_mul_le (Nat.pos_of_ne_zero positive)).mpr below)
    (nearest_bounds n d).1

/-- A number is never rounded above a natural number over it. -/
theorem nearest_le {n d m : Nat} (above : n < m * d) : nearest n d ≤ m :=
  Nat.le_trans (nearest_bounds n d).2 (Nat.div_lt_of_lt_mul (Nat.mul_comm m d ▸ above))

/-! ## Powers of two -/

/-- A shift to the left multiplies by a power of two. -/
theorem shiftLeft_eq_mul (n k : Nat) : n <<< k = n * 1 <<< k := by
  rw [Nat.shiftLeft_eq, Nat.one_shiftLeft]

/-- Powers of two are multiplied by adding their exponents. -/
theorem one_shiftLeft_mul (k l : Nat) : 1 <<< k * 1 <<< l = 1 <<< (k + l) := by
  rw [Nat.one_shiftLeft, Nat.one_shiftLeft, Nat.one_shiftLeft, Nat.pow_add]

/-- Powers of two are positive. -/
theorem one_shiftLeft_pos (k : Nat) : 0 < 1 <<< k := by
  rw [Nat.one_shiftLeft]
  exact Nat.two_pow_pos k

/-- Powers of two are ordered as their exponents. -/
theorem one_shiftLeft_le {k l : Nat} (ordered : k ≤ l) : 1 <<< k ≤ 1 <<< l := by
  rw [Nat.one_shiftLeft, Nat.one_shiftLeft]
  exact Nat.pow_le_pow_right (by decide) ordered

/-- And their exponents are ordered as they are. -/
theorem lt_of_one_shiftLeft_lt {k l : Nat} (ordered : 1 <<< k < 1 <<< l) : k < l := by
  rw [Nat.one_shiftLeft, Nat.one_shiftLeft] at ordered
  exact (Nat.pow_lt_pow_iff_right (by decide)).mp ordered

/-- A positive number is no less than the power of its binary logarithm. -/
theorem one_shiftLeft_log2_le {n : Nat} (positive : n ≠ 0) : 1 <<< n.log2 ≤ n := by
  rw [Nat.one_shiftLeft]
  exact Nat.log2_self_le positive

/-- Every number is below the next power of two. -/
theorem lt_one_shiftLeft_log2 (n : Nat) : n < 1 <<< (n.log2 + 1) := by
  rw [Nat.one_shiftLeft]
  exact Nat.lt_log2_self

/-- The binary logarithm of a number below a power of two is below the exponent. -/
theorem log2_le_of_lt {n k : Nat} (positive : n ≠ 0) (small : n < 1 <<< (k + 1)) : n.log2 ≤ k := by
  rw [Nat.one_shiftLeft] at small
  exact Nat.le_of_lt_succ ((Nat.log2_lt positive).mpr small)

/-- The binary logarithm of a number from a power of two on is no less than the exponent. -/
theorem le_log2_of_le {n k : Nat} (great : 1 <<< k ≤ n) : k ≤ n.log2 := by
  have positive : n ≠ 0 := Nat.ne_of_gt (Nat.lt_of_lt_of_le (one_shiftLeft_pos k) great)
  rw [Nat.one_shiftLeft] at great
  exact (Nat.le_log2 positive).mpr great

/-! ## Rounding a quotient -/

/-- A quotient lies between a power of two and the next one. -/
structure IsAt (numerator denominator exponent : Nat) : Prop where
  positive : denominator ≠ 0
  low : denominator * 1 <<< exponent ≤ numerator
  high : numerator < denominator * 1 <<< (exponent + 1)

/-- The quotient in units of the last place, rounded. -/
def significand (numerator denominator exponent : Nat) : Nat :=
  if 52 ≤ exponent then nearest numerator (denominator <<< (exponent - 52))
  else nearest (numerator <<< (52 - exponent)) denominator

variable {p q k : Nat}

/-- A positive integer lies between the power of two at its leading bit and the next one. -/
theorem isAt_one {n : Nat} (positive : n ≠ 0) : IsAt n 1 n.log2 where
  positive := by decide
  low := by rw [Nat.one_mul]; exact one_shiftLeft_log2_le positive
  high := by rw [Nat.one_mul]; exact lt_one_shiftLeft_log2 n

/-- A quotient between two powers of two is not zero. -/
theorem IsAt.numerator_ne_zero (bounds : IsAt p q k) : p ≠ 0 := by
  have unit := Nat.mul_pos (Nat.pos_of_ne_zero bounds.positive) (one_shiftLeft_pos k)
  exact Nat.ne_of_gt (Nat.lt_of_lt_of_le unit bounds.low)

/-- Where a quotient lies does not depend on how it is written. -/
theorem IsAt.of_mul {c : Nat} (bounds : IsAt (c * p) (c * q) k) : IsAt p q k := by
  have scaled : c * q ≠ 0 := bounds.positive
  have scale : 0 < c := Nat.pos_of_mul_pos_right (Nat.pos_of_ne_zero scaled)
  constructor
  · intro zero
    rw [zero, Nat.mul_zero] at scaled
    exact scaled rfl
  · have low := bounds.low
    rw [Nat.mul_assoc] at low
    exact Nat.le_of_mul_le_mul_left low scale
  · have high := bounds.high
    rw [Nat.mul_assoc] at high
    exact Nat.lt_of_mul_lt_mul_left high

/-- The difference of the bit lengths is the exponent or one too much. -/
theorem floorLog_eq (bounds : IsAt p q k) : floorLog p q = k := by
  have positive := bounds.numerator_ne_zero
  have lower : 1 <<< (q.log2 + k) < 1 <<< (p.log2 + 1) :=
    calc 1 <<< (q.log2 + k) = 1 <<< q.log2 * 1 <<< k := (one_shiftLeft_mul _ _).symm
      _ ≤ q * 1 <<< k := Nat.mul_le_mul_right _ (one_shiftLeft_log2_le bounds.positive)
      _ ≤ p := bounds.low
      _ < 1 <<< (p.log2 + 1) := lt_one_shiftLeft_log2 p
  have upper : 1 <<< p.log2 < 1 <<< (q.log2 + 1 + (k + 1)) :=
    calc 1 <<< p.log2 ≤ p := one_shiftLeft_log2_le positive
      _ < q * 1 <<< (k + 1) := bounds.high
      _ ≤ 1 <<< (q.log2 + 1) * 1 <<< (k + 1) :=
          Nat.mul_le_mul_right _ (Nat.le_of_lt (lt_one_shiftLeft_log2 q))
      _ = 1 <<< (q.log2 + 1 + (k + 1)) := one_shiftLeft_mul _ _
  have atLeast := lt_of_one_shiftLeft_lt lower
  have atMost := lt_of_one_shiftLeft_lt upper
  have low := bounds.low
  have high := bounds.high
  rw [floorLog, if_pos (by omega), shiftLeft_eq_mul]
  by_cases guessed : p.log2 = q.log2 + k
  · rw [show ((p.log2 : Int) - q.log2).toNat = k by omega, if_pos low]
    omega
  · rw [show ((p.log2 : Int) - q.log2).toNat = k + 1 by omega, if_neg (Nat.not_le.mpr high)]
    omega

/-- A significand has 53 bits, or it is the next power of two. -/
theorem significand_bounds (bounds : IsAt p q k) :
    1 <<< 52 ≤ significand p q k ∧ significand p q k ≤ 1 <<< 53 := by
  have positive := bounds.positive
  have low := bounds.low
  have high := bounds.high
  rw [significand]
  split
  · next great =>
    have unit : q <<< (k - 52) ≠ 0 := by
      rw [shiftLeft_eq_mul]
      exact Nat.mul_ne_zero positive (Nat.ne_of_gt (one_shiftLeft_pos _))
    have wide (j : Nat) : 1 <<< j * q <<< (k - 52) = q * 1 <<< (j + (k - 52)) := by
      rw [shiftLeft_eq_mul q, Nat.mul_left_comm, one_shiftLeft_mul]
    constructor
    · refine le_nearest unit ?_
      rwa [wide, show 52 + (k - 52) = k by omega]
    · refine nearest_le ?_
      rwa [wide, show 53 + (k - 52) = k + 1 by omega]
  · next narrow =>
    have unit := one_shiftLeft_pos (52 - k)
    have wide (j l : Nat) (sum : j + (52 - k) = l) :
        q * 1 <<< j * 1 <<< (52 - k) = 1 <<< l * q := by
      rw [Nat.mul_assoc, one_shiftLeft_mul, sum, Nat.mul_comm]
    rw [shiftLeft_eq_mul p]
    constructor
    · refine le_nearest positive ?_
      rw [← wide k 52 (by omega)]
      exact Nat.mul_le_mul_right _ low
    · refine nearest_le ?_
      rw [← wide (k + 1) 53 (by omega)]
      exact Nat.mul_lt_mul_of_pos_right high unit

/-- The exponent of a quotient stands in front of its significand. -/
theorem roundQuotient_eq (bounds : IsAt p q k) (finite : k ≤ 1022) :
    double.roundQuotient p q = (k + 1022) * 1 <<< 52 + significand p q k := by
  obtain ⟨-, bounded⟩ := significand_bounds bounds
  have wanted : max (floorLog p q - (double.fractionBits : Int)) double.minExponent =
      (k : Int) - 52 := by
    rw [floorLog_eq bounds, fractionBits_double, minExponent_double]
    omega
  have rounded : (if 0 ≤ (k : Int) - 52 then nearest p (q <<< ((k : Int) - 52).toNat)
      else nearest (p <<< (-((k : Int) - 52)).toNat) q) = significand p q k := by
    rw [significand]
    by_cases great : 52 ≤ k
    · rw [if_pos (by omega), if_pos great, show ((k : Int) - 52).toNat = k - 52 by omega]
    · rw [if_neg (by omega), if_neg great, show (-((k : Int) - 52)).toNat = 52 - k by omega]
  have biased : ((k : Int) - 52 - double.minExponent).toNat = k + 1022 := by
    rw [minExponent_double]
    omega
  rw [roundQuotient, if_neg bounds.numerator_ne_zero]
  dsimp only
  rw [wanted, rounded, biased, shiftLeft_eq_mul]
  refine Nat.min_eq_left ?_
  rw [infinity_double, fractionUnit_double]
  omega

/-- Nothing is rounded beyond infinity. -/
theorem roundQuotient_le_infinity (numerator denominator : Nat) :
    double.roundQuotient numerator denominator ≤ double.infinity := by
  rw [roundQuotient]
  split
  · exact Nat.zero_le _
  · exact Nat.min_le_right _ _

/-- No positive integer is rounded to zero. -/
theorem roundQuotient_one_ne_zero {n : Nat} (positive : n ≠ 0) : double.roundQuotient n 1 ≠ 0 := by
  rw [roundQuotient, if_neg positive]
  dsimp only
  rw [floorLog_eq (isAt_one positive), fractionBits_double, minExponent_double, shiftLeft_eq_mul,
    infinity_double]
  omega

/-! ## What bits denote -/

/-- The bits of a sign. -/
def signOf (negative : Bool) : Nat := if negative then double.signBit else 0

/-- No sign takes up no bits. -/
@[simp] theorem signOf_false : signOf false = 0 := rfl

/-- The sign is either no bit or the sign bit. -/
theorem signOf_eq (negative : Bool) : signOf negative = 0 ∧ negative = false ∨
    signOf negative = double.signBit ∧ negative = true := by
  cases negative with
  | false => exact .inl ⟨rfl, rfl⟩
  | true => exact .inr ⟨rfl, rfl⟩

/-- A significand whose leading bit is set is read back from behind its exponent. -/
theorem decode_of_significand (negative : Bool) {exponent significand : Nat}
    (leading : 1 <<< 52 ≤ significand) (bounded : significand < 1 <<< 53)
    (finite : exponent ≤ 2045) :
    double.decode (signOf negative + (exponent * 1 <<< 52 + significand)) =
      .finite negative significand (double.minExponent + exponent) := by
  have sign := signOf_eq negative
  rw [signBit_double] at sign
  generalize given : signOf negative + (exponent * 1 <<< 52 + significand) = bits
  have marked : decide (double.signBit ≤ bits) = negative := by
    rw [signBit_double]
    rcases sign with ⟨sign, rfl⟩ | ⟨sign, rfl⟩
    · exact decide_eq_false (by omega)
    · exact decide_eq_true (by omega)
  have fraction : bits % 1 <<< double.fractionBits = significand - 1 <<< 52 := by
    rw [fractionUnit_double]
    omega
  have biased : (bits >>> double.fractionBits) % 1 <<< double.exponentBits = exponent + 1 := by
    rw [exponentUnit_double, shiftRight_fractionBits_double]
    omega
  have whole : 1 <<< double.fractionBits + (significand - 1 <<< 52) = significand := by
    rw [fractionUnit_double]
    omega
  have inside : exponent + 1 ≠ 1 <<< double.exponentBits - 1 := by
    rw [exponentUnit_double]
    omega
  have unbiased : double.minExponent + (exponent + 1 : Nat) - 1 = double.minExponent + exponent := by
    rw [Int.natCast_add, Int.natCast_one]
    omega
  rw [decode, marked, fraction, biased, if_neg inside, if_neg (Nat.succ_ne_zero exponent), whole,
    unbiased]

/-- A significand that was rounded up to the next power of two is read back as that power. -/
theorem decode_of_rounded (negative : Bool) {exponent rounded : Nat} (leading : 1 <<< 52 ≤ rounded)
    (bounded : rounded ≤ 1 <<< 53) (finite : exponent ≤ 2044) : ∃ significand shift,
      double.decode (signOf negative + (exponent * 1 <<< 52 + rounded)) =
        .finite negative significand shift ∧
      Binary64.rational negative significand shift =
        Binary64.rational negative rounded (double.minExponent + exponent) := by
  by_cases carries : rounded = 1 <<< 53
  · have carried : exponent * 1 <<< 52 + rounded = (exponent + 1) * 1 <<< 52 + 1 <<< 52 := by omega
    have doubled : ((1 <<< 53 : Nat) : Rat) = ((1 <<< 52 : Nat) : Rat) * 2 :=
      Rat.natCast_mul (1 <<< 52) 2
    refine ⟨1 <<< 52, double.minExponent + (exponent + 1 : Nat), ?_, ?_⟩
    · rw [carried, decode_of_significand negative (Nat.le_refl _) (by decide) (by omega)]
    · have power : (2 : Rat) ^ (double.minExponent + (exponent + 1 : Nat)) =
          (2 : Rat) ^ (double.minExponent + exponent) * 2 := by
        rw [← Rat.zpow_add_one (by decide), Int.natCast_add, Int.natCast_one, Int.add_assoc]
      have same : ((1 <<< 52 : Nat) : Rat) * (2 : Rat) ^ (double.minExponent + (exponent + 1 : Nat)) =
          (rounded : Rat) * (2 : Rat) ^ (double.minExponent + exponent) := by
        rw [power, carries, doubled, Rat.mul_assoc, Rat.mul_comm 2]
      rw [Binary64.rational, Binary64.rational, same]
  · exact ⟨rounded, _, decode_of_significand negative leading (by omega) (by omega), rfl⟩

/-- Positive bits up to those of infinity denote infinity, or a number that is not zero. -/
theorem decode_of_pos {bits : Nat} (positive : bits ≠ 0) (bounded : bits ≤ double.infinity) :
    double.decode bits = .infinite false ∨
      ∃ significand exponent, double.decode bits = .finite false significand exponent ∧
        significand ≠ 0 := by
  by_cases infinite : bits = double.infinity
  · subst infinite
    exact .inl (by decide)
  · rw [infinity_double] at bounded infinite
    have unsigned : decide (double.signBit ≤ bits) = false := by
      rw [signBit_double]
      exact decide_eq_false (by omega)
    have inside : bits >>> double.fractionBits % 1 <<< double.exponentBits ≠
        1 <<< double.exponentBits - 1 := by
      rw [exponentUnit_double, shiftRight_fractionBits_double]
      omega
    rw [decode, unsigned, if_neg inside]
    split
    · next subnormal =>
      rw [exponentUnit_double, shiftRight_fractionBits_double] at subnormal
      refine .inr ⟨_, _, rfl, ?_⟩
      rw [fractionUnit_double]
      omega
    · refine .inr ⟨_, _, rfl, ?_⟩
      rw [fractionUnit_double]
      omega

end BinaryFormat

end SignalAccess

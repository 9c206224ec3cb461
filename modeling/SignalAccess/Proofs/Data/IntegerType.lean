import SignalAccess.Data.Compression
import SignalAccess.Proofs.Number.Integers

/-!
# Integer types

The words of an integer type are the integers between two bounds, and each integer has one word. In
the types of at most four bytes every integer has an exact number, from which its word comes back. A
number beyond the bounds becomes the nearer one.
-/

namespace SignalAccess

namespace FlatType

/-- The integer that a word of an integer type denotes. -/
def integer (type : FlatType) (word : BitVec (8 * type.width)) : Int :=
  if type.reading = .signed then word.toInt else word.toNat

/-- The integer of an integer type that is nearest to another one. -/
def clamp (type : FlatType) (i : Int) : Int := max type.least (min type.greatest i)

/-- A type of integers that are exact as floating point numbers. -/
structure IsShortInteger (type : FlatType) : Prop where
  integral : type.reading = .signed ∨ type.reading = .unsigned
  short : type.width ≤ 4

variable {type : FlatType} {i : Int}

/-! ## Words and integers -/

/-- The words of every type have bits. -/
theorem width_pos (type : FlatType) : 0 < 8 * type.width := by cases type <;> decide

/-- A type of unsigned integers is none of signed ones. -/
theorem not_signed (unsigned : type.reading = .unsigned) : type.reading ≠ .signed := by
  rw [unsigned]
  decide

/-- A word of a signed type denotes its integer in two's complement. -/
theorem integer_of_signed (signed : type.reading = .signed) (word : BitVec (8 * type.width)) :
    type.integer word = word.toInt := if_pos signed

/-- A word of an unsigned type denotes its natural number. -/
theorem integer_of_unsigned (unsigned : type.reading = .unsigned)
    (word : BitVec (8 * type.width)) : type.integer word = word.toNat :=
  if_neg (not_signed unsigned)

/-- The integers of a signed type lie around zero, with one more of them below it. -/
theorem bounds_of_signed (signed : type.reading = .signed) :
    type.least = -(1 <<< (8 * type.width - 1) : Nat) ∧
      type.greatest = (1 <<< (8 * type.width - 1) : Nat) - 1 :=
  ⟨if_pos signed, if_pos signed⟩

/-- The integers of an unsigned type start at zero. -/
theorem bounds_of_unsigned (unsigned : type.reading = .unsigned) :
    type.least = 0 ∧ type.greatest = (1 <<< (8 * type.width) : Nat) - 1 :=
  ⟨if_neg (not_signed unsigned), if_neg (not_signed unsigned)⟩

/-- Every word of an integer type denotes an integer within the bounds of the type. -/
theorem integer_bounds (integral : type.reading = .signed ∨ type.reading = .unsigned)
    (word : BitVec (8 * type.width)) :
    type.least ≤ type.integer word ∧ type.integer word ≤ type.greatest := by
  rcases integral with signed | unsigned
  · obtain ⟨least, greatest⟩ := bounds_of_signed signed
    rw [integer_of_signed signed, least, greatest, Nat.one_shiftLeft, Int.natCast_pow]
    exact ⟨BitVec.le_toInt word, Int.le_sub_one_of_lt (BitVec.toInt_lt (x := word))⟩
  · obtain ⟨least, greatest⟩ := bounds_of_unsigned unsigned
    have upper := word.isLt
    rw [integer_of_unsigned unsigned, least, greatest, Nat.one_shiftLeft]
    omega

/-- An integer between the bounds is that of its word. -/
theorem integer_ofInt (integral : type.reading = .signed ∨ type.reading = .unsigned)
    (above : type.least ≤ i) (below : i ≤ type.greatest) :
    type.integer (BitVec.ofInt (8 * type.width) i) = i := by
  rcases integral with signed | unsigned
  · obtain ⟨least, greatest⟩ := bounds_of_signed signed
    rw [least, Nat.one_shiftLeft, Int.natCast_pow] at above
    rw [greatest, Nat.one_shiftLeft, Int.natCast_pow] at below
    rw [integer_of_signed signed]
    exact BitVec.toInt_ofInt_eq_self type.width_pos above (Int.lt_of_le_sub_one below)
  · obtain ⟨least, greatest⟩ := bounds_of_unsigned unsigned
    rw [least] at above
    rw [greatest, Nat.one_shiftLeft] at below
    rw [integer_of_unsigned unsigned, BitVec.toNat_ofInt, Int.emod_eq_of_lt above (by omega),
      Int.toNat_of_nonneg above]

/-- An integer of a type has no more bits than the words of the type. -/
theorem natAbs_lt_of_bounds (integral : type.reading = .signed ∨ type.reading = .unsigned)
    (above : type.least ≤ i) (below : i ≤ type.greatest) : i.natAbs < 1 <<< (8 * type.width) := by
  rcases integral with signed | unsigned
  · obtain ⟨least, greatest⟩ := bounds_of_signed signed
    have half := BinaryFormat.one_shiftLeft_mul (8 * type.width - 1) 1
    have unit := BinaryFormat.one_shiftLeft_pos (8 * type.width - 1)
    rw [Nat.sub_add_cancel type.width_pos] at half
    omega
  · obtain ⟨least, greatest⟩ := bounds_of_unsigned unsigned
    omega

/-- A word is that of its integer. -/
theorem ofInt_integer (word : BitVec (8 * type.width)) :
    BitVec.ofInt (8 * type.width) (type.integer word) = word := by
  rw [integer]
  split
  · exact BitVec.ofInt_toInt
  · rw [BitVec.ofInt_natCast, BitVec.ofNat_toNat, BitVec.setWidth_eq]

/-! ## Integers and numbers -/

/-- A word of an integer type has the number of its integer. -/
theorem toBinary64_eq (integral : type.reading = .signed ∨ type.reading = .unsigned)
    (word : BitVec (8 * type.width)) : type.toBinary64 word = .ofInt (type.integer word) := by
  have denoted : type.value word = .integer (type.integer word) := by
    cases type
    case float => simp [reading] at integral
    case double => simp [reading] at integral
    case complex => simp [reading] at integral
    case doubleComplex => simp [reading] at integral
    all_goals rfl
  rw [toBinary64, denoted]

/-- A number becomes a word of an integer type by cutting off its fraction within the bounds of the
type. -/
theorem ofBinary64_eq (integral : type.reading = .signed ∨ type.reading = .unsigned) (x : Binary64) :
    type.ofBinary64 x = BitVec.ofInt (8 * type.width) (x.truncate type.least type.greatest) := by
  cases type
  case float => simp [reading] at integral
  case double => simp [reading] at integral
  all_goals rfl

/-- An integer within the bounds of a type is the nearest one to itself. -/
theorem clamp_of_bounds (above : type.least ≤ i) (below : i ≤ type.greatest) : type.clamp i = i := by
  rw [clamp, Int.min_eq_right below, Int.max_eq_right above]

/-- The nearest integer of a type lies within its bounds. -/
theorem clamp_bounds (integral : type.reading = .signed ∨ type.reading = .unsigned) (i : Int) :
    type.least ≤ type.clamp i ∧ type.clamp i ≤ type.greatest := by
  obtain ⟨lower, upper⟩ := integer_bounds integral 0
  rw [clamp]
  omega

/-- The word of a number that is an integer is that of the nearest integer of the type. -/
theorem ofBinary64_of_denotes (integral : type.reading = .signed ∨ type.reading = .unsigned)
    {x : Binary64} (denoted : x.Denotes i) :
    type.ofBinary64 x = BitVec.ofInt (8 * type.width) (type.clamp i) := by
  rw [ofBinary64_eq integral, denoted.truncate, clamp]

/-- An integer type is one of numbers. -/
theorem isNumeric_of_integral (integral : type.reading = .signed ∨ type.reading = .unsigned) :
    type.isNumeric = true := by
  rcases integral with signed | unsigned
  · simp [isNumeric, signed]
  · simp [isNumeric, unsigned]

/-- A number that is cut to the bounds of a type lies within them. -/
theorem truncate_bounds (integral : type.reading = .signed ∨ type.reading = .unsigned)
    (x : Binary64) : type.least ≤ x.truncate type.least type.greatest ∧
      x.truncate type.least type.greatest ≤ type.greatest := by
  have zero := integer_bounds integral 0
  have nothing : type.integer 0 = 0 := by simp [integer]
  rw [Binary64.truncate]
  split
  · rwa [nothing] at zero
  · split
    · omega
    · omega
  · dsimp only
    omega

/-! ## The rule for lines -/

/-- The rule for lines of integers admits no deviation. -/
theorem lineRule_precision (integral : type.reading = .signed ∨ type.reading = .unsigned) :
    type.lineRule.precision = .zero := by
  cases type
  case float => simp [reading] at integral
  case double => simp [reading] at integral
  all_goals rfl

/-- A step becomes its integer part, or the bound of the type that it is beyond. -/
theorem lineRule_settle (integral : type.reading = .signed ∨ type.reading = .unsigned)
    (x : Binary64) : type.lineRule.settle x = .ofInt (x.truncate type.least type.greatest) := by
  obtain ⟨above, below⟩ := truncate_bounds integral x
  show type.toBinary64 (type.ofBinary64 x) = .ofInt (x.truncate type.least type.greatest)
  rw [ofBinary64_eq integral, toBinary64_eq integral, integer_ofInt integral above below]

/-! ## Types of at most four bytes -/

/-- The step between three integers of a signed type is an integer of the type. -/
theorem clamp_of_signed (signed : type.reading = .signed) {first step : Int}
    (above : type.least ≤ first) (below : first ≤ type.greatest)
    (lastAbove : type.least ≤ first + step + step) (lastBelow : first + step + step ≤ type.greatest) :
    type.clamp step = step := by
  obtain ⟨least, greatest⟩ := bounds_of_signed signed
  exact clamp_of_bounds (by omega) (by omega)

/-- The step between two integers of an unsigned type is one of the type unless it goes down; then
zero is the nearest. -/
theorem clamp_of_unsigned (unsigned : type.reading = .unsigned) {first step : Int}
    (above : type.least ≤ first) (nextBelow : first + step ≤ type.greatest) :
    type.clamp step = max 0 step := by
  obtain ⟨least, -⟩ := bounds_of_unsigned unsigned
  rw [clamp]
  omega

/-- The signed types of at most four bytes. -/
theorem signed_of_mem (among : type ∈ [FlatType.char, .short, .int]) :
    type.IsShortInteger ∧ type.reading = .signed := by
  simp only [List.mem_cons, List.not_mem_nil, or_false] at among
  rcases among with rfl | rfl | rfl
  all_goals exact ⟨⟨.inl rfl, by decide⟩, rfl⟩

/-- The unsigned types of at most four bytes. -/
theorem unsigned_of_mem (among : type ∈ [FlatType.unsignedChar, .unsignedShort, .unsignedInt]) :
    type.IsShortInteger ∧ type.reading = .unsigned := by
  simp only [List.mem_cons, List.not_mem_nil, or_false] at among
  rcases among with rfl | rfl | rfl
  all_goals exact ⟨⟨.inr rfl, by decide⟩, rfl⟩

namespace IsShortInteger

variable (short : type.IsShortInteger)

include short

/-- The integers of a short type have less than 33 bits. -/
theorem natAbs_lt (above : type.least ≤ i) (below : i ≤ type.greatest) : i.natAbs < 1 <<< 32 := by
  have width := short.short
  exact Nat.lt_of_lt_of_le (natAbs_lt_of_bounds short.integral above below)
    (BinaryFormat.one_shiftLeft_le (by omega))

/-- A short integer is less than 2^32 away from zero. -/
theorem natAbs_integer_lt (word : BitVec (8 * type.width)) :
    (type.integer word).natAbs < 1 <<< 32 := by
  obtain ⟨above, below⟩ := integer_bounds short.integral word
  exact short.natAbs_lt above below

/-- The rule for lines of short integers has no limit, as all of them are exact. -/
theorem lineRule_limit : type.lineRule.limit = none := by
  have width := short.short
  have narrow : ¬(type.reading ≠ .floating ∧ type.width = 8) := by omega
  exact if_neg narrow

/-- A step becomes the nearest integer of the type. -/
theorem settle_ofInt (exact : i.natAbs ≤ 1 <<< 53) :
    type.lineRule.settle (.ofInt i) = .ofInt (type.clamp i) := by
  rw [lineRule_settle short.integral, (Binary64.denotes_ofInt exact).truncate, clamp]

end IsShortInteger

end FlatType

end SignalAccess

/-!
# Binary floating point

The two floating point formats of the wire, 32 and 64 bits wide, are kept as their bits, so that
values travel unchanged, down to the payload of a NaN. Arithmetic on the wider format is exact on
rationals, and the result is rounded once to the nearest value of the format, ties to the even
significand. Results that are not finite follow the usual rules.
-/
namespace SignalAccess

/-- A format, by the number of significant bits and of bits of the exponent. -/
structure BinaryFormat where
  /-- The bits of a significand, the leading one included. -/
  precision : Nat
  exponentBits : Nat
  deriving DecidableEq, Repr

/-- What the bits of a format denote. -/
inductive BinaryValue where
  | nan
  | infinite (negative : Bool)
  /-- The number `significand * 2 ^ exponent`, or its negative. -/
  | finite (negative : Bool) (significand : Nat) (exponent : Int)
  deriving DecidableEq, Repr

namespace BinaryFormat

/-- The format of 32 bits. -/
def single : BinaryFormat := ⟨24, 8⟩

/-- The format of 64 bits. -/
def double : BinaryFormat := ⟨53, 11⟩

/-- The bits of a significand without the leading one. -/
def fractionBits (format : BinaryFormat) : Nat := format.precision - 1

/-- The exponent of the least positive value, as a power of two. -/
def minExponent (format : BinaryFormat) : Int :=
  3 - (1 <<< (format.exponentBits - 1) : Nat) - format.precision

/-- The bits of positive infinity. -/
def infinity (format : BinaryFormat) : Nat :=
  (1 <<< format.exponentBits - 1) <<< format.fractionBits

/-- The bit of the sign. -/
def signBit (format : BinaryFormat) : Nat := 1 <<< (format.exponentBits + format.fractionBits)

/-- What bits denote. -/
def decode (format : BinaryFormat) (bits : Nat) : BinaryValue :=
  let negative := format.signBit ≤ bits
  let fraction := bits % 1 <<< format.fractionBits
  let exponent := (bits >>> format.fractionBits) % 1 <<< format.exponentBits
  if exponent = 1 <<< format.exponentBits - 1 then
    if fraction = 0 then .infinite negative else .nan
  else if exponent = 0 then .finite negative fraction format.minExponent
  else
    .finite negative (1 <<< format.fractionBits + fraction) (format.minExponent + exponent - 1)

/-- The quotient of two natural numbers, rounded to the nearest, ties to even. -/
def nearest (numerator denominator : Nat) : Nat :=
  let quotient := numerator / denominator
  let remainder := 2 * (numerator % denominator)
  if remainder < denominator then quotient
  else if denominator < remainder then quotient + 1
  else quotient + quotient % 2

/-- The greatest power of two that is not above a positive quotient, as its exponent. -/
def floorLog (numerator denominator : Nat) : Int :=
  let guess : Int := numerator.log2 - denominator.log2
  if 0 ≤ guess then
    if denominator <<< guess.toNat ≤ numerator then guess else guess - 1
  else if denominator ≤ numerator <<< (-guess).toNat then guess
  else guess - 1

/-- The bits of the value nearest to a quotient that is not negative. -/
def roundQuotient (format : BinaryFormat) (numerator denominator : Nat) : Nat :=
  if numerator = 0 then 0
  else
    let wanted := floorLog numerator denominator - format.fractionBits
    let exponent := max wanted format.minExponent
    let significand :=
      if 0 ≤ exponent then nearest numerator (denominator <<< exponent.toNat)
      else nearest (numerator <<< (-exponent).toNat) denominator
    let bits := (exponent - format.minExponent).toNat <<< format.fractionBits + significand
    min bits format.infinity

/-- The bits of the value nearest to a number; `negativeZero` is the sign of a zero result. -/
def round (format : BinaryFormat) (negativeZero : Bool) (number : Rat) : Nat :=
  let bits := format.roundQuotient number.num.natAbs number.den
  if number < 0 ∨ (number = 0 ∧ negativeZero) then format.signBit + bits else bits

/-- The bits of a value. A NaN gets the quiet bits without a payload. -/
def encode (format : BinaryFormat) : BinaryValue → Nat
  | .nan => format.infinity + 1 <<< (format.fractionBits - 1)
  | .infinite negative => if negative then format.signBit + format.infinity else format.infinity
  | .finite negative significand exponent =>
    let number : Rat := (significand : Rat) * (2 : Rat) ^ exponent
    format.round negative (if negative then -number else number)

end BinaryFormat

/-- A floating point number of 32 bits. -/
structure Binary32 where
  bits : UInt32
  deriving DecidableEq, Repr

/-- A floating point number of 64 bits. -/
structure Binary64 where
  bits : UInt64
  deriving DecidableEq, Repr

namespace Binary32

/-- What the number denotes. -/
def value (x : Binary32) : BinaryValue := BinaryFormat.single.decode x.bits.toNat

end Binary32

namespace Binary64

/-- What the number denotes. -/
def value (x : Binary64) : BinaryValue := BinaryFormat.double.decode x.bits.toNat

/-- The number with the bits of a natural number. -/
def ofBits (bits : Nat) : Binary64 := ⟨UInt64.ofNat bits⟩

/-- The nearest number to a value. -/
def ofValue (value : BinaryValue) : Binary64 := ofBits (BinaryFormat.double.encode value)

/-- The nearest number to a rational; `negativeZero` is the sign of a zero result. -/
def ofRat (negativeZero : Bool) (number : Rat) : Binary64 :=
  ofBits (BinaryFormat.double.round negativeZero number)

/-- The nearest number to an integer. -/
def ofInt (i : Int) : Binary64 := ofRat false i

/-- Zero. -/
def zero : Binary64 := ⟨0⟩

/-- One. -/
def one : Binary64 := ofInt 1

/-- Not a number. -/
def nan : Binary64 := ofValue .nan

/-- The number that a narrower one is. -/
def ofSingle (x : Binary32) : Binary64 := ofValue x.value

/-- The narrower number nearest to a number. -/
def toSingle (x : Binary64) : Binary32 := ⟨UInt32.ofNat (BinaryFormat.single.encode x.value)⟩

/-- The rational that is denoted by a sign, a significand and an exponent. -/
def rational (negative : Bool) (significand : Nat) (exponent : Int) : Rat :=
  let magnitude : Rat := (significand : Rat) * (2 : Rat) ^ exponent
  if negative then -magnitude else magnitude

/-- The rational that a finite number is. -/
def toRat? (x : Binary64) : Option Rat :=
  match x.value with
  | .finite negative significand exponent => some (rational negative significand exponent)
  | _ => none

/-- The negative of a value. -/
def negate : BinaryValue → BinaryValue
  | .nan => .nan
  | .infinite negative => .infinite !negative
  | .finite negative significand exponent => .finite (!negative) significand exponent

/-- The sum of two values. A zero sum is negative only when both terms are. -/
def addValues : BinaryValue → BinaryValue → Binary64
  | .nan, _ => nan
  | _, .nan => nan
  | .infinite s, .infinite t => if s = t then ofValue (.infinite s) else nan
  | .infinite s, .finite .. => ofValue (.infinite s)
  | .finite .., .infinite t => ofValue (.infinite t)
  | .finite s m d, .finite t n e => ofRat (s && t) (rational s m d + rational t n e)

/-- The sum. -/
def add (x y : Binary64) : Binary64 := addValues x.value y.value

/-- The difference. -/
def sub (x y : Binary64) : Binary64 := addValues x.value (negate y.value)

/-- The product. -/
def mul (x y : Binary64) : Binary64 :=
  match x.value, y.value with
  | .nan, _ => nan
  | _, .nan => nan
  | .infinite s, .infinite t => ofValue (.infinite (s != t))
  | .infinite s, .finite t n _ => if n = 0 then nan else ofValue (.infinite (s != t))
  | .finite s m _, .infinite t => if m = 0 then nan else ofValue (.infinite (s != t))
  | .finite s m d, .finite t n e => ofRat (s != t) (rational s m d * rational t n e)

/-- The quotient. -/
def div (x y : Binary64) : Binary64 :=
  match x.value, y.value with
  | .nan, _ => nan
  | _, .nan => nan
  | .infinite _, .infinite _ => nan
  | .infinite s, .finite t _ _ => ofValue (.infinite (s != t))
  | .finite s _ _, .infinite t => ofRat (s != t) 0
  | .finite s m d, .finite t n e =>
    if n = 0 then (if m = 0 then nan else ofValue (.infinite (s != t)))
    else ofRat (s != t) (rational s m d / rational t n e)

/-- The magnitude. -/
def abs (x : Binary64) : Binary64 := ofBits (x.bits.toNat % BinaryFormat.double.signBit)

/-- Whether the first number is greater than the second. A NaN is neither. -/
def exceeds (x y : Binary64) : Bool :=
  match x.value, y.value with
  | .nan, _ => false
  | _, .nan => false
  | .infinite s, .infinite t => !s && t
  | .infinite s, .finite .. => !s
  | .finite .., .infinite t => t
  | .finite s m d, .finite t n e => rational t n e < rational s m d

/-- The integer part of a number, moved to the nearest of two bounds when it lies outside. A NaN
becomes zero. -/
def truncate (low high : Int) (x : Binary64) : Int :=
  match x.value with
  | .nan => 0
  | .infinite negative => if negative then low else high
  | .finite negative significand exponent =>
    let number := rational negative significand exponent
    max low (min high (number.num.tdiv number.den))

end Binary64

end SignalAccess

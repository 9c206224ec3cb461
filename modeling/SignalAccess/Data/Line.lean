import SignalAccess.Number.Binary
/-!
# Lines

Coordinates at equal distances lie on a line, which its first value and its mean step describe. The
fit is stated for any arithmetic: for floating point numbers, in which axes are compressed, and for
rationals, in which no rounding hides what the test of the steps admits.
-/
namespace SignalAccess

/-- The operations that fitting a line takes. -/
structure Arithmetic (α : Type) where
  ofNat : Nat → α
  sub : α → α → α
  div : α → α → α
  abs : α → α
  /-- Whether the first number is greater than the second. -/
  exceeds : α → α → Bool

namespace Arithmetic

/-- Arithmetic that rounds each result to 64 bits. -/
def rounded : Arithmetic Binary64 where
  ofNat n := .ofInt n
  sub := Binary64.sub
  div := Binary64.div
  abs := Binary64.abs
  exceeds := Binary64.exceeds

/-- Arithmetic that does not round. -/
def exact : Arithmetic Rat where
  ofNat n := n
  sub := (· - ·)
  div := (· / ·)
  abs x := if x < 0 then -x else x
  exceeds x y := y < x

end Arithmetic

/-- What counts as a line for numbers of some kind. -/
structure LineRule (α : Type) where
  /-- The greatest difference between consecutive steps. -/
  precision : α
  /-- The greatest magnitude of a number, where there is one. -/
  limit : Option α
  /-- The number of the kind that a step becomes. -/
  settle : α → α

/-- A line, by its first value and its mean step. -/
structure Line (α : Type) where
  start : α
  step : α
  deriving DecidableEq, Repr

namespace Line

variable {α : Type}

/-- The differences between the neighbours in a list. -/
def differences (arithmetic : Arithmetic α) (values : List α) : List α :=
  List.zipWith arithmetic.sub values.tail values

/-- Whether a number is too great for a rule. -/
def isBeyond (arithmetic : Arithmetic α) (rule : LineRule α) (value : α) : Bool :=
  rule.limit.any fun limit => arithmetic.exceeds (arithmetic.abs value) limit

/-- Whether all steps are the same, as far as the precision goes. -/
def isRegular (arithmetic : Arithmetic α) (rule : LineRule α) (values : List α) : Bool :=
  (differences arithmetic (differences arithmetic values)).all fun change =>
    !arithmetic.exceeds (arithmetic.abs change) rule.precision

/-- The line on which values lie. Fewer than three values make up none. -/
def fit? (arithmetic : Arithmetic α) (rule : LineRule α) (values : List α) : Option (Line α) :=
  match values.head?, values.getLast? with
  | some first, some last =>
    if values.length < 3 || values.any (isBeyond arithmetic rule) then none
    else if isRegular arithmetic rule values then
      let mean :=
        arithmetic.div (arithmetic.sub last first) (arithmetic.ofNat (values.length - 1))
      some ⟨first, rule.settle mean⟩
    else none
  | _, _ => none

end Line

end SignalAccess

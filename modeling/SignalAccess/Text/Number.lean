import SignalAccess.Text.Basic
/-!
# Numbers in texts

Integers are a run of decimal digits with at most one sign. A decimal number adds at most one point
and an exponent; digits are required, and a point alone is none. Values are read only within the
range of the field that holds them.
-/
namespace SignalAccess

namespace Text

/-- The text after one optional sign. -/
def afterSign : Text → Text
  | '-' :: rest => rest
  | '+' :: rest => rest
  | t => t

/-- Whether a text is a non-empty run of decimal digits. -/
def isDigits (t : Text) : Bool := !t.isEmpty && t.all Char.isDigit

/-- Whether a text is an integer with at most one sign. -/
def isInteger (t : Text) : Bool := isDigits (afterSign t)

/-- Whether a text is an exponent: the letter `e` in either case, then an integer; or nothing. -/
def isExponent : Text → Bool
  | [] => true
  | c :: rest => (c == 'e' || c == 'E') && isInteger rest

/-- Whether a text is a decimal number: an optional sign, digits with at most one point among or
beside them, and an optional exponent. -/
def isDecimal (t : Text) : Bool :=
  let body := afterSign t
  let whole := body.takeWhile Char.isDigit
  let rest := body.dropWhile Char.isDigit
  match rest with
  | '.' :: tail =>
    let places := tail.takeWhile Char.isDigit
    !(whole ++ places).isEmpty && isExponent (tail.dropWhile Char.isDigit)
  | _ => !whole.isEmpty && isExponent rest

/-- Whether a text is a list of integers between commas or semicolons, blanks around them aside. -/
def isIntegerList (t : Text) : Bool :=
  !t.isEmpty && (splitWhere (fun c => c == ',' || c == ';') t).all fun item => isInteger (trim item)

/-- The value of a run of decimal digits. -/
def digitsValue (t : Text) : Nat := t.foldl (fun value c => value * 10 + (c.toNat - '0'.toNat)) 0

/-- The value of an integer, with no bound on its size. -/
def integerValue? (t : Text) : Option Int :=
  if isInteger t then
    let magnitude : Int := digitsValue (afterSign t)
    some (if t.head? = some '-' then -magnitude else magnitude)
  else none

/-- The value of an integer that a signed word of `bits` bits holds. -/
def wordValue? (bits : Nat) (t : Text) : Option Int :=
  let bound : Int := (1 <<< (bits - 1) : Nat)
  (integerValue? t).filter fun value => -bound ≤ value && value < bound

/-- The value of an integer that a field of 32 bits holds. -/
def int32? (t : Text) : Option Int32 := (wordValue? 32 t).map Int32.ofInt

/-- The decimal digits of a natural number. -/
def ofNat (n : Nat) : Text := Nat.toDigits 10 n

/-- The decimal digits of an integer, with a sign when it is negative. -/
def ofInt : Int → Text
  | .ofNat n => ofNat n
  | .negSucc n => '-' :: ofNat (n + 1)

end Text

end SignalAccess

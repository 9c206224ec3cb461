import SignalAccess.Json.Basic
import SignalAccess.Text.Number
/-!
# Reading JSON

The grammar of JSON, read from the front of a text: a function takes what it recognizes and returns
the rest. Nesting is bounded by the length of the text, from which the recursion takes its measure,
so no document is refused for its depth. White space is the four characters of the grammar.
-/
namespace SignalAccess

namespace Json

/-- The text behind white space. -/
def skipSpace (t : Text) : Text :=
  t.dropWhile fun c => c == ' ' || c == '\t' || c == '\n' || c == '\r'

/-- The value of a hexadecimal digit. -/
def hexDigit? (c : Char) : Option Nat :=
  if c.isDigit then some (c.toNat - '0'.toNat)
  else if 'a' ≤ c ∧ c ≤ 'f' then some (c.toNat - 'a'.toNat + 10)
  else if 'A' ≤ c ∧ c ≤ 'F' then some (c.toNat - 'A'.toNat + 10)
  else none

/-- The code unit that four hexadecimal digits write. -/
def codeUnit? (digits : Text) : Option Nat :=
  digits.foldlM (fun value c => (hexDigit? c).map (value * 16 + ·)) 0

/-- The character that an escape of one letter stands for. -/
def escape? : Char → Option Char
  | '"' => some '"'
  | '\\' => some '\\'
  | '/' => some '/'
  | 'b' => some '\x08'
  | 'f' => some '\x0C'
  | 'n' => some '\n'
  | 'r' => some '\r'
  | 't' => some '\t'
  | _ => none

/-- The codes of a string literal up to its closing quote, and the text behind it. A code is a
character or one code unit of an escape. -/
def codes : Text → Option (List Nat × Text)
  | [] => none
  | '"' :: rest => some ([], rest)
  | '\\' :: 'u' :: a :: b :: c :: d :: rest => do
    let unit ← codeUnit? [a, b, c, d]
    let (more, tail) ← codes rest
    some (unit :: more, tail)
  | '\\' :: c :: rest => do
    let escaped ← escape? c
    let (more, tail) ← codes rest
    some (escaped.toNat :: more, tail)
  | c :: rest =>
    if c.toNat < 0x20 then none
    else do
      let (more, tail) ← codes rest
      some (c.toNat :: more, tail)

/-- The text of a list of codes; two surrogates in the right order are one character, and a
surrogate without its partner is none. -/
def textOfCodes : List Nat → Option Text
  | [] => some []
  | lead :: rest =>
    if 0xD800 ≤ lead ∧ lead < 0xDC00 then
      match rest with
      | trail :: more =>
        if 0xDC00 ≤ trail ∧ trail < 0xE000 then
          (textOfCodes more).map
            (Char.ofNat (0x10000 + (lead - 0xD800) * 0x400 + (trail - 0xDC00)) :: ·)
        else none
      | [] => none
    else if 0xDC00 ≤ lead ∧ lead < 0xE000 then none
    else (textOfCodes rest).map (Char.ofNat lead :: ·)

/-- A string literal behind its opening quote. -/
def stringTail (t : Text) : Option (Option Text × Text) :=
  (codes t).map fun (found, rest) => (textOfCodes found, rest)

/-- A fraction or an exponent: its mark, an optional sign where `signed`, and digits. Absent marks
take nothing. -/
def numberPart (isMark : Char → Bool) (signed : Bool) : Text → Option (Bool × Text)
  | [] => some (false, [])
  | c :: rest =>
    if isMark c then
      let body := if signed then Text.afterSign rest else rest
      if (body.takeWhile Char.isDigit).isEmpty then none
      else some (true, body.dropWhile Char.isDigit)
    else some (false, c :: rest)

/-- A number. A whole number within 64 bits is an integer, with the exception of a negative zero. -/
def number (t : Text) : Option (Json × Text) := do
  let negative := t.head? == some '-'
  let body := if negative then t.drop 1 else t
  let digits := body.takeWhile Char.isDigit
  if digits.isEmpty || (digits.head? == some '0' && 1 < digits.length) then none
  let (hasFraction, rest) ← numberPart (· == '.') false (body.dropWhile Char.isDigit)
  let (hasExponent, rest) ← numberPart (fun c => c == 'e' || c == 'E') true rest
  let magnitude : Int := Text.digitsValue digits
  let value := if negative then -magnitude else magnitude
  let whole := !hasFraction && !hasExponent && !(negative && value == 0)
    && -(1 <<< 63 : Nat) ≤ value && value < (1 <<< 64 : Nat)
  some (if whole then .integer value else .real, rest)

/-- The result of a fixed word in front of a text. -/
def word (spelling : String) (json : Json) (t : Text) : Option (Json × Text) :=
  (t.after? spelling.toList).map fun rest => (json, rest)

mutual

/-- A value, and the text behind it. -/
def value : Nat → Text → Option (Json × Text)
  | 0, _ => none
  | fuel + 1, t =>
    match skipSpace t with
    | [] => none
    | '"' :: rest => (stringTail rest).map fun (text, tail) => (.string text, tail)
    | '[' :: rest =>
      match skipSpace rest with
      | ']' :: tail => some (.array [], tail)
      | body => (items fuel body).map fun (found, tail) => (.array found, tail)
    | '{' :: rest =>
      match skipSpace rest with
      | '}' :: tail => some (.object [], tail)
      | body => (members fuel body).map fun (found, tail) => (.object found, tail)
    | 'n' :: rest => word "null" .null ('n' :: rest)
    | 't' :: rest => word "true" (.bool true) ('t' :: rest)
    | 'f' :: rest => word "false" (.bool false) ('f' :: rest)
    | body => number body

/-- The items of an array up to its closing bracket. -/
def items : Nat → Text → Option (List Json × Text)
  | 0, _ => none
  | fuel + 1, t => do
    let (first, rest) ← value fuel t
    match skipSpace rest with
    | ',' :: tail =>
      let (more, tail) ← items fuel tail
      some (first :: more, tail)
    | ']' :: tail => some ([first], tail)
    | _ => none

/-- The members of an object up to its closing brace. -/
def members : Nat → Text → Option (List (Option Text × Json) × Text)
  | 0, _ => none
  | fuel + 1, t =>
    match skipSpace t with
    | '"' :: rest => do
      let (key, rest) ← stringTail rest
      match skipSpace rest with
      | ':' :: rest =>
        let (first, rest) ← value fuel rest
        match skipSpace rest with
        | ',' :: tail =>
          let (more, tail) ← members fuel tail
          some ((key, first) :: more, tail)
        | '}' :: tail => some ([(key, first)], tail)
        | _ => none
      | _ => none
    | _ => none

end

/-- The value of a document, which nothing but white space may surround. -/
def parse? (t : Text) : Option Json := do
  let (json, rest) ← value (2 * t.length + 2) t
  if (skipSpace rest).isEmpty then some json else none

end Json

end SignalAccess

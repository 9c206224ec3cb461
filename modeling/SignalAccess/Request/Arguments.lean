import SignalAccess.Failure.Basic
import SignalAccess.Request.Basic
/-!
# Argument lists

The arguments of a call are separated by commas, unless the list proposes another delimiter with an
argument `delimiter='X'`. A delimiter between quotes separates nothing. An argument without an
equals sign is a keyword: `/flag` sets `flag` to `true`, and any other token is its own value.

Delimiters that separate nothing are covered by a control character while the list is cut, and
uncovered in the arguments. Writing a list quotes what would otherwise be cut or trimmed. The written
list gives the same names and values, unless a value that is quoted in it proposes a delimiter.
-/
namespace SignalAccess

namespace Arguments

/-- The delimiter of a list that proposes none. -/
def defaultDelimiter : Char := ','

/-- The character that covers a delimiter which separates nothing. -/
def cover : Char := '\x01'

/-- The name of the argument that proposes a delimiter. -/
def proposalName : Text := "delimiter".toList

/-- A list around the character that it proposes as its delimiter. -/
structure Proposal where
  before : Text
  delimiter : Char
  after : Text
  deriving DecidableEq, Repr

/-- The character between equal quotes behind an equals sign, with the number of characters that
stand behind its opening quote. -/
def quotedAfterEquals? (t : Text) : Option (Char × Nat) :=
  match t.trimStart with
  | '=' :: rest =>
    match Text.trimStart rest with
    | opening :: c :: closing :: tail =>
      if opening = closing ∧ Text.isQuote opening then some (c, tail.length + 2) else none
    | _ => none
  | _ => none

/-- The delimiter that a list proposes. A proposal inside the list must follow the delimiter that it
proposes; a name that merely ends like one proposes nothing. -/
def proposal? (t : Text) : Except Failure (Option Proposal) :=
  match t.breakIgnoringCase proposalName with
  | none => .ok none
  | some (front, tail) =>
    match quotedAfterEquals? tail with
    | none => .ok none
    | some (c, remaining) =>
      let before := t.take (t.length - remaining)
      let found : Proposal := ⟨before, c, t.drop (before.length + 1)⟩
      if front.isEmpty then .ok (some found)
      else
        match front.trimEnd.getLast? with
        | none => .ok none
        | some previous =>
          if previous = c then .ok (some found)
          else if previous.isAlphanum then .ok none
          else .error (.syntaxError (.argumentDelimiter t))

/-- Cover the delimiters between quotes, where `quote` is the quote that is open. A quote that is
never closed reaches to the end. -/
def coverQuoted (delimiter : Char) : Option Char → Text → Text
  | _, [] => []
  | some opening, c :: rest =>
    if c = opening then c :: coverQuoted delimiter none rest
    else (if c = delimiter then cover else c) :: coverQuoted delimiter (some opening) rest
  | none, c :: rest => c :: coverQuoted delimiter (if Text.isQuote c then some c else none) rest

/-- The name and the value of a token without blanks around it. -/
def split (token : Text) : Text × Text :=
  match token.breakAt '=' with
  | some (name, value) => (name.trim, value.trim)
  | none =>
    match token with
    | '/' :: keyword => (Text.trim keyword, "true".toList)
    | _ => (token, token)

/-- A value without one closing parenthesis at its end. -/
def dropParenthesis (value : Text) : Text :=
  if value.getLast? = some ')' then value.dropLast else value

/-- The argument that a token writes. -/
def ofToken (stripQuotes : Bool) (token : Text) : Argument :=
  let token := token.trim
  let (name, value) := split token
  let value := dropParenthesis value
  if stripQuotes then ⟨token, name.unquote.trim, value.unquote.trim⟩ else ⟨token, name, value⟩

/-- An argument with its delimiters uncovered. -/
def uncover (delimiter : Char) (argument : Argument) : Argument where
  source := argument.source.replaceChar cover delimiter
  name := argument.name.replaceChar cover delimiter
  value := argument.value.replaceChar cover delimiter

/-- The arguments of a list whose delimiter is known and whose proposal is covered. -/
def cut (stripQuotes : Bool) (delimiter : Char) (t : Text) : List Argument :=
  let tokens := Text.splitOn delimiter (coverQuoted delimiter none t)
  (tokens.filter fun token => !token.trim.isEmpty).map fun token =>
    uncover delimiter (ofToken stripQuotes token)

/-- The arguments that a text lists. With `stripQuotes` names and values lose the quotes around
them. -/
def parse (t : Text) (stripQuotes : Bool) : Except Failure (List Argument) :=
  let t := t.trim
  if t.isEmpty then .ok []
  else if t.head? = some '=' || t.getLast? = some '=' then
    .error (.syntaxError (.argumentList t))
  else do
    match ← proposal? t with
    | none => .ok (cut stripQuotes defaultDelimiter t)
    | some found => .ok (cut stripQuotes found.delimiter (found.before ++ cover :: found.after))

/-- Whether a name or value would not be read back as it stands. -/
def needsQuotes (t : Text) : Bool :=
  t.isEmpty || t.any (fun c => c == defaultDelimiter || c == '=' || Text.isQuote c)
    || t.getLast? == some ')' || t.head? == some '/' || t.trim != t

/-- A name or value as it is written in a list. -/
def quote (t : Text) : Except Failure Text :=
  if !needsQuotes t then .ok t
  else if !t.contains '\'' then .ok ('\'' :: t ++ ['\''])
  else if !t.contains '"' then .ok ('"' :: t ++ ['"'])
  else .error (.syntaxError (.bothQuotes t))

/-- One name and value as they are written in a list. -/
def renderOne (argument : Argument) : Except Failure Text := do
  let name ← quote argument.name
  let value ← quote argument.value
  .ok (name ++ '=' :: value)

/-- The list that writes names and values. -/
def render (arguments : List Argument) : Except Failure Text := do
  let written ← arguments.mapM renderOne
  .ok (Text.joinBy ", ".toList written)

end Arguments

end SignalAccess

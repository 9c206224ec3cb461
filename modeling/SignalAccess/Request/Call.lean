import SignalAccess.Text.Basic
/-!
# Function calls

A source or signal can call a function: a name, perhaps behind libraries, and arguments between
parentheses. A slash in front of the parentheses makes the text a path, and a slash behind them
makes it a mistake; a slash between them is part of an argument.
-/
namespace SignalAccess

namespace Call

/-- The text behind every delimiter that is found from the front, blanks trimmed at each. -/
def unqualified (delimiter t : Text) : Text :=
  if delimiter.isEmpty then t
  else
    match _found : t.breakOn delimiter with
    | none => t
    | some (_, tail) => unqualified delimiter tail.trim
termination_by t.length
decreasing_by
  have := Text.length_of_breakBy _found
  have := Text.length_trim_le tail
  have : 0 < delimiter.length := by
    cases delimiter with
    | nil => simp at *
    | cons => simp
  omega

/-- The name of the function that a text calls, without its libraries; empty when there is no
call. -/
def functionName (t delimiter : Text) : Text :=
  match t.breakAt '(' with
  | none => []
  | some (head, _) => unqualified delimiter head.trim

/-- The library directly in front of the function that a text calls. -/
def library? (t delimiter : Text) : Option Text := do
  let (head, _) ← t.breakAt '('
  let (qualifiers, _) ← head.breakOnLast delimiter
  let qualifier :=
    match qualifiers.breakOnLast delimiter with
    | some (_, tail) => tail.trim
    | none => qualifiers.trim
  if qualifier.isEmpty then none else some qualifier

/-- Whether a text has the shape of a call: both parentheses, no slash in front of the first opening
one and none behind the first closing one. -/
def isCall (t : Text) : Bool :=
  match t.breakAt '(', t.breakAt ')' with
  | some (head, _), some (_, tail) => !head.contains '/' && !tail.contains '/'
  | _, _ => false

/-- The arguments up to the first closing parenthesis. -/
def firstArguments? (t : Text) : Option Text := do
  let (_, tail) ← t.breakAt '('
  let (inner, _) ← tail.breakAt ')'
  some inner.trim

/-- The arguments up to the last closing parenthesis. -/
def outerArguments? (t : Text) : Option Text := do
  let (_, tail) ← t.breakAt '('
  let (inner, _) ← tail.breakAtLast ')'
  some inner.trim

end Call

end SignalAccess

import SignalAccess.Configuration
/-!
# Path rules

A rule turns paths that a server cannot see into paths that it can. The rules come from two lists in
two texts, matched by position, and the first rule that fits a path is applied. A target without
wildcards fits the paths that start with it. In a target with wildcards a `*` stands for one element
of the path, and the wildcards of the substitute receive the matched elements in order.
-/
namespace SignalAccess

/-- One target and its substitute. -/
structure PathRule where
  target : Text
  substitute : Text
  deriving DecidableEq, Repr

namespace PathRule

/-- The most rules that a list gives. -/
def maxRules : Nat := 10

/-- The length that no target or substitute reaches. -/
def lengthBound : Nat := 256

/-- Whether a character separates the items of a list. -/
def isSeparator (c : Char) : Bool := c == ',' || c == ':' || c == ';'

/-- The items of a list; `role` names them in failures. -/
def items (role : String) (t : Text) : Except Failure (List Text) :=
  let found := ((Text.splitWhere isSeparator t).filter (!·.isEmpty)).take maxRules
  match found.find? fun item => lengthBound ≤ item.byteLength with
  | some long => .error (.configuration (.ruleTooLong role (long.take 16)))
  | none => .ok found

/-- The rules of two lists. -/
def ofLists (targets substitutes : Text) : Except Failure (List PathRule) := do
  let targets ← items "target" targets
  let substitutes ← items "substitute" substitutes
  if targets.length = substitutes.length then
    .ok ((targets.zip substitutes).map fun (target, substitute) => ⟨target, substitute⟩)
  else .error (.configuration .ruleCount)

/-- The rules of a configuration. -/
def ofConfiguration (configuration : Configuration) : Except Failure (List PathRule) :=
  ofLists configuration.ruleTargets configuration.ruleSubstitutes

/-- Whether an element of a rule stands for an element of the path. -/
def isWild (element : Text) : Bool := element.head? == some '*'

/-- The number of wildcards of a text. -/
def wildcards (t : Text) : Nat := (t.elements.filter isWild).length

/-- The path behind its first `count` elements. Slashes in front of an element belong to it. -/
def behindElements : Nat → Text → Text
  | 0, t => t
  | count + 1, t =>
    let body := t.dropWhile (· == '/')
    behindElements count (body.dropWhile (· != '/'))

/-- Whether the elements of a target fit the elements in front of a path. -/
def fits : (target path : List Text) → Bool
  | [], _ => true
  | _ :: _, [] => false
  | t :: target, p :: path => (isWild t || t == p) && fits target path

/-- The elements of a path that the wildcards of a target stand for. -/
def captured (target path : List Text) : List Text :=
  ((target.zip path).filter fun (t, _) => isWild t).map (·.2)

/-- The elements of a substitute with values in the places of its wildcards. A wildcard without a
value becomes empty. -/
def fill : (substitute values : List Text) → Text
  | [], _ => []
  | element :: rest, values =>
    if isWild element then '/' :: (values.headD []) ++ fill rest values.tail
    else '/' :: element ++ fill rest values

/-- The path that a rule whose target has wildcards makes of a path; none when the rule does not
fit. -/
def applyWild (rule : PathRule) (path : Text) : Except Failure (Option Text) :=
  let target := rule.target.elements
  if path.elements.length < target.length then .ok none
  else if wildcards rule.substitute ≠ 0 ∧ wildcards rule.substitute ≠ wildcards rule.target then
    .error (.syntaxError .wildcardCount)
  else if fits target path.elements then
    let start :=
      if wildcards rule.substitute = 0 then rule.substitute
      else fill rule.substitute.elements (captured target path.elements)
    .ok (some (start ++ behindElements target.length path))
  else .ok none

/-- The path that a rule makes of a path; none when the rule does not fit. -/
def apply (rule : PathRule) (path : Text) : Except Failure (Option Text) :=
  if rule.target.hasWildcard then rule.applyWild path
  else if rule.substitute.hasWildcard then .error (.syntaxError .wildcardWithoutTarget)
  else .ok ((path.after? rule.target).map (rule.substitute ++ ·))

/-- The path that the first fitting rule makes of a path; the path itself when none fits. Rules behind
the one that is applied are not looked at. -/
def applyFirst : List PathRule → Text → Except Failure Text
  | [], path => .ok path
  | rule :: rules, path => do
    match ← rule.apply path with
    | some replaced => .ok replaced
    | none => applyFirst rules path

/-- The path that a list of rules makes of a path. The empty path stays empty, whatever the rules
are. -/
def replace (rules : List PathRule) (path : Text) : Except Failure Text :=
  if path.isEmpty then .ok [] else applyFirst rules path

end PathRule

end SignalAccess

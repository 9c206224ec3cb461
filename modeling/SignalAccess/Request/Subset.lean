import SignalAccess.Failure.Basic
import SignalAccess.Request.Slice
import SignalAccess.Text.Number
/-!
# Subset expressions

A subset is written behind a signal as groups of slices, `[a:b:c][d:e]` or `[a:b:c, d:e]`, with
brackets or braces. A slice is one of

* `*` or nothing: every index; `#`: the last index; `N`: the single index `N`;
* `a:` and `a:*`: from `a` to the end; `a:b`: from `a` to `b`, both included;
* `a::c`, `a:*:c` and `a:b:c`: the same at the stride `c`.

Only groups at the very end of a signal that hold nothing but the characters of slices are a subset;
any other bracket belongs to the signal's name.
-/
namespace SignalAccess

namespace Slice

/-- A bound of a slice; none when it is left open. `what` names the bound in failures. -/
def parseBound (what : String) (token : Text) : Except Failure (Option Int) :=
  let token := token.trim
  if token.isEmpty || token = ['*'] || token = ['#'] then .ok none
  else
    match token.wordValue? 64 with
    | none => .error (.syntaxError (.boundNotInteger what token))
    | some value =>
      if value < 0 then .error (.syntaxError (.boundNegative what value)) else .ok (some value)

/-- The stride of a slice; one when it is left open. -/
def parseStride (token : Text) : Except Failure Int :=
  let trimmed := token.trim
  if trimmed.isEmpty || trimmed = ['*'] then .ok 1
  else
    match trimmed.wordValue? 64 with
    | none => .error (.syntaxError (.strideNotInteger token))
    | some value =>
      if value ≤ 0 then .error (.syntaxError (.strideNotPositive value)) else .ok value

/-- The slice between two bounds at a stride. Both bounds are included, so a closed slice has its
count, which is computed in words. -/
def between (start : Int) (stop : Option Int) (stride : Int) : Except Failure Slice :=
  match stop with
  | none => .ok ⟨start, -1, stride, -1, false⟩
  | some stop =>
    if stop < start then .error (.syntaxError (.stopBeforeStart stop start))
    else .ok ⟨start, stop, stride, (word (word (stop - start + 1) + stride - 1)).tdiv stride, false⟩

/-- The count of a closed slice is the length of its range over the stride, rounded up, unless the
length or what is added to round it is beyond a word. -/
theorem between_eq_of_fits {start stop stride : Int} (forward : start ≤ stop) (positive : 0 < stride)
    (fits : stop - start + 1 + stride ≤ 0x8000000000000000) :
    between start (some stop) stride =
      .ok ⟨start, stop, stride, (stop - start + stride).tdiv stride, false⟩ := by
  have length : word (stop - start + 1) = stop - start + 1 :=
    word_of_fits (by omega) (by omega)
  have sum : stop - start + 1 + stride - 1 = stop - start + stride := by omega
  have rounded : word (stop - start + 1 + stride - 1) = stop - start + stride := by
    rw [sum, word_of_fits (by omega) (by omega)]
  rw [between, if_neg (Int.not_lt.mpr forward), length, rounded]

/-- A slice of two or three parts; without a third part the stride is one. -/
def parseRange (start stop : Text) (stride : Option Text) : Except Failure Slice := do
  let start ← parseBound "start index" start
  let stop ← parseBound "stop index" stop
  let stride ← stride.elim (.ok 1) parseStride
  between (start.getD 0) stop stride

/-- The slice that a text writes. -/
def parse (element : Text) : Except Failure Slice :=
  let element := element.trim
  if element.isEmpty || element = ['*'] then .ok whole
  else if element = ['#'] then .ok last
  else
    match Text.splitOn ':' element with
    | [token] => do
      let start ← parseBound "index" token
      .ok (index (start.getD 0))
    | [start, stop] => parseRange start stop none
    | [start, stop, stride] => parseRange start stop (some stride)
    | _ => .error (.syntaxError (.sliceParts element))

end Slice

namespace Subset

/-- Whether a character opens a group. -/
def isOpening (c : Char) : Bool := c == '[' || c == '{'

/-- Whether a character closes a group. -/
def isClosing (c : Char) : Bool := c == ']' || c == '}'

/-- The contents of the groups in a text, where `current` holds what was read of an open group. An
opening inside a group starts it anew, and text outside every group is passed over. -/
def groupsFrom : Option Text → Text → List Text
  | _, [] => []
  | current, c :: rest =>
    if isOpening c then groupsFrom (some []) rest
    else if isClosing c then
      match current with
      | some group => group :: groupsFrom none rest
      | none => groupsFrom none rest
    else groupsFrom (current.map (· ++ [c])) rest

/-- The groups of an expression; an expression without brackets is a group of its own. -/
def groups (expression : Text) : List Text :=
  let expression := expression.trim
  match expression with
  | c :: _ => if isOpening c then groupsFrom none expression else [expression]
  | [] => [expression]

/-- The selection that an expression writes. Every slice must be well formed; those beyond the
greatest rank are then dropped. -/
def parse (expression : Text) : Except Failure Subset := do
  let slices ← ((groups expression).flatMap (Text.splitOn ',')).mapM Slice.parse
  .ok ⟨slices.take maxRank⟩

/-- Whether a character can stand in a group of slices. -/
def isSliceChar (c : Char) : Bool := c.isDigit || ":*#,- \t".toList.contains c

/-- The bracket that would open a group at the end of a text. -/
def opening? (t : Text) : Option Char :=
  match t.getLast? with
  | some ']' => some '['
  | some '}' => some '{'
  | _ => none

/-- The last group of a text, if the text ends with a group of slices: what stands in front of the
group, and the group. -/
def lastGroup? (t : Text) : Option (Text × Text) := do
  let opening ← opening? t
  let (front, group) ← Text.breakAtLast opening t
  if group.dropLast.all isSliceChar then some (front, opening :: group) else none

/-- What stands in front of a group is shorter than the text that the group ends. -/
theorem length_of_lastGroup? {t front group : Text} (found : lastGroup? t = some (front, group)) :
    front.length < t.length := by
  simp only [lastGroup?, Option.bind_eq_bind, Option.bind_eq_some_iff, Prod.exists] at found
  obtain ⟨opening, _, head, tail, broken, found⟩ := found
  have := Text.length_of_breakOnLast broken
  split at found
  · simp only [Option.some.injEq, Prod.mk.injEq] at found
    obtain ⟨rfl, -⟩ := found
    simp only [List.length_singleton] at this
    omega
  · simp at found

/-- A text in two parts: its groups of slices at the end, and what stands in front of them. -/
def splitGroups (t : Text) : Text × Text :=
  match _found : lastGroup? t with
  | none => (t, [])
  | some (front, group) =>
    let (head, groups) := splitGroups front
    (head, groups ++ group)
termination_by t.length
decreasing_by exact length_of_lastGroup? _found

/-- A subset taken off a signal. -/
structure Extracted where
  /-- The signal without the subset. -/
  signal : Text
  /-- The subset as it was written. -/
  text : Text
  subset : Subset
  deriving DecidableEq, Repr

/-- The subset at the end of a signal, if there is one. Groups alone are not a subset of
anything. -/
def extract (signal : Text) : Except Failure (Option Extracted) :=
  match splitGroups signal.trim with
  | ([], _) => .ok none
  | (_, []) => .ok none
  | (head, text) => do
    let subset ← parse text
    .ok (some ⟨head.trimEnd, text, subset⟩)

end Subset

end SignalAccess

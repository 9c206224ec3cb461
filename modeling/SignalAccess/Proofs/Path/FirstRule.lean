import SignalAccess.Proofs.Path.Cuts
import SignalAccess.Proofs.Path.PlainRules
import SignalAccess.Proofs.Path.Wildcards
import SignalAccess.Proofs.Failure.Recording

/-!
# The first rule that fits

Rules are tried in the order in which they stand. One that fits a path makes another path of it, and
the rules behind it are not looked at. One whose wildcards cannot be paired ends the search with a
failure, whether it fits or not, unless its target has wildcards and more elements than the path.
What this comes to is said here apart from the search, for rules whose wildcards stand alone. The
empty path is left alone before any rule is reached.
-/

namespace SignalAccess

namespace PathRule

open Text

variable {rule : PathRule} {path replaced : Text} {rules : List PathRule}

/-- Whether a rule fits a path: element by element if its target has wildcards, and else character
by character. -/
def Fits (rule : PathRule) (path : Text) : Prop :=
  if '*' ∈ rule.target then Agrees rule.target.elements path.elements else rule.target <+: path

/-- Whether the wildcards of a rule clash: the substitute has some, and not as many as the target.
For a target with wildcards this is seen on paths with enough elements only. -/
structure Clashes (rule : PathRule) (path : Text) : Prop where
  gaps : rule.substitute.elements.count wild ≠ 0
  unequal : rule.substitute.elements.count wild ≠ rule.target.elements.count wild
  long : '*' ∈ rule.target → rule.target.elements.length ≤ path.elements.length

/-- How a rule fails whose wildcards clash. -/
def clash (rule : PathRule) : SyntaxFault :=
  if '*' ∈ rule.target then .wildcardCount else .wildcardWithoutTarget

/-- What a rule makes of a path that it fits. -/
inductive Makes (rule : PathRule) (path : Text) : Text → Prop where
  /-- The substitute takes the place of a target without wildcards. -/
  | front {rest : Text} (plain : '*' ∉ rule.target) (whole : path = rule.target ++ rest) :
    Makes rule path (rule.substitute ++ rest)
  /-- A substitute without wildcards takes the place of the elements that the target fits. -/
  | elements {front rest : Text} (gapped : '*' ∈ rule.target) (plain : '*' ∉ rule.substitute)
    (cut : IsCut rule.target.elements.length path front rest) :
    Makes rule path (rule.substitute ++ rest)
  /-- A substitute with wildcards takes their place with its gaps filled. -/
  | filled {front rest : Text} {filled : List Text} (gapped : '*' ∈ rule.target)
    (gaps : '*' ∈ rule.substitute) (cut : IsCut rule.target.elements.length path front rest)
    (fills : Fills rule.target.elements path.elements rule.substitute.elements filled) :
    Makes rule path (filled.flatMap ('/' :: ·) ++ rest)

/-- What a list of rules comes to for a path: the first rule that fits makes another path of it,
unless a rule whose wildcards clash is reached, and a path that no rule fits is left as it is. -/
inductive Applies (path : Text) : List PathRule → Except Failure Text → Prop where
  | exhausted : Applies path [] (.ok path)
  | clashed {rule : PathRule} {rest : List PathRule} (clashes : rule.Clashes path) :
    Applies path (rule :: rest) (.error (.syntaxError rule.clash))
  | made {rule : PathRule} {rest : List PathRule} {replaced : Text} (paired : ¬rule.Clashes path)
    (fits : rule.Fits path) (makes : rule.Makes path replaced) :
    Applies path (rule :: rest) (.ok replaced)
  | passed {rule : PathRule} {rest : List PathRule} {outcome : Except Failure Text}
    (paired : ¬rule.Clashes path) (apart : ¬rule.Fits path) (later : Applies path rest outcome) :
    Applies path (rule :: rest) outcome

/-! ## One rule -/

/-- A path is made into one other path. -/
theorem Makes.unique {other : Text} (makes : rule.Makes path replaced)
    (others : rule.Makes path other) : replaced = other := by
  cases makes with
  | front plain whole =>
    cases others with
    | front _ same => rw [List.append_cancel_left (whole.symm.trans same)]
    | elements gapped _ _ => exact absurd gapped plain
    | filled gapped _ _ _ => exact absurd gapped plain
  | elements gapped plain cut =>
    cases others with
    | front otherwise _ => exact absurd gapped otherwise
    | elements _ _ same => rw [(cut.unique same).2]
    | filled _ gaps _ _ => exact absurd gaps plain
  | filled gapped gaps cut fills =>
    cases others with
    | front otherwise _ => exact absurd gapped otherwise
    | elements _ plain _ => exact absurd gaps plain
    | filled _ _ same refills => rw [(cut.unique same).2, fills.unique refills]

/-- A rule that clashes with a path is a fault of the syntax. -/
theorem apply_of_clashes (regular : rule.Regular) (clashes : rule.Clashes path) :
    rule.apply path = .error (.syntaxError rule.clash) := by
  obtain ⟨held, unequal, long⟩ := clashes
  have gaps : '*' ∈ rule.substitute := by
    rw [regular.2.mem_iff]
    exact List.count_pos_iff.mp (Nat.pos_of_ne_zero held)
  by_cases gapped : '*' ∈ rule.target
  · have reached : ¬path.elements.length < rule.target.elements.length :=
      Nat.not_lt.mpr (long gapped)
    rw [apply, if_pos (hasWildcard_iff.mpr gapped), applyWild, if_neg reached,
      regular.1.wildcards_eq, regular.2.wildcards_eq, if_pos ⟨held, unequal⟩, clash, if_pos gapped]
  · rw [apply_of_plain_target (hasWildcard_eq_false_iff.mpr gapped) (hasWildcard_iff.mpr gaps),
      clash, if_neg gapped]

/-- Where the wildcards do not clash the substitute has none, or as many as the target. -/
theorem count_of_paired (paired : ¬rule.Clashes path)
    (long : '*' ∈ rule.target → rule.target.elements.length ≤ path.elements.length) :
    rule.substitute.elements.count wild = 0 ∨
      rule.substitute.elements.count wild = rule.target.elements.count wild := by
  by_contra neither
  rw [not_or] at neither
  exact paired ⟨neither.1, neither.2, long⟩

/-- Where they do not clash and the path is long enough, the elements decide. -/
theorem applyWild_of_paired (regular : rule.Regular) (paired : ¬rule.Clashes path)
    (long : rule.target.elements.length ≤ path.elements.length) :
    rule.applyWild path =
      if fits rule.target.elements path.elements then
        let start :=
          if rule.substitute.elements.count wild = 0 then rule.substitute
          else fill rule.substitute.elements (captured rule.target.elements path.elements)
        .ok (some (start ++ behindElements rule.target.elements.length path))
      else .ok none := by
  have counted := count_of_paired paired fun _ => long
  rw [applyWild, if_neg (Nat.not_lt.mpr long), regular.1.wildcards_eq, regular.2.wildcards_eq,
    if_neg fun both => both.2 (counted.resolve_left both.1)]

/-- A rule with wildcards leaves a path alone whose elements do not agree with its target. -/
theorem applyWild_of_apart (regular : rule.Regular) (paired : ¬rule.Clashes path)
    (apart : ¬Agrees rule.target.elements path.elements) : rule.applyWild path = .ok none := by
  by_cases short : path.elements.length < rule.target.elements.length
  · rw [applyWild, if_pos short]
  · rw [← fits_iff_agrees regular.1.gapped] at apart
    rw [applyWild_of_paired regular paired (Nat.not_lt.mp short), if_neg apart]

/-- A rule with wildcards replaces a path whose elements agree with its target. -/
theorem exists_applyWild_of_agrees (regular : rule.Regular) (paired : ¬rule.Clashes path)
    (gapped : '*' ∈ rule.target) (agrees : Agrees rule.target.elements path.elements) :
    ∃ replaced, rule.Makes path replaced ∧ rule.applyWild path = .ok (some replaced) := by
  have agreed := (fits_iff_agrees regular.1.gapped).mpr agrees
  -- The wildcard itself is an element of the target, so that the cut lies behind some element.
  have given : rule.target.elements.length ≠ 0 := by
    rw [List.length_eq_zero_iff.ne]
    exact List.ne_nil_of_mem (regular.1.mem_iff.mp gapped)
  obtain ⟨front, cut⟩ := exists_isCut (.inl given) agrees.long
  rw [applyWild_of_paired regular paired agrees.long, if_pos agreed]
  by_cases gaps : '*' ∈ rule.substitute
  · have held : rule.substitute.elements.count wild ≠ 0 :=
      (List.count_pos_iff.mpr (regular.2.mem_iff.mp gaps)).ne'
    have counted := (count_of_paired paired fun _ => agrees.long).resolve_left held
    have fills := fills_filling regular.1.gapped regular.2.gapped counted agrees.long
    refine ⟨_, .filled gapped gaps cut fills, ?_⟩
    rw [if_neg held, fill_eq_flatMap]
  · have unheld : rule.substitute.elements.count wild = 0 :=
      List.count_eq_zero.mpr (mt regular.2.mem_iff.mpr gaps)
    exact ⟨_, .elements gapped gaps cut, by rw [if_pos unheld]⟩

/-- The substitute of a target without wildcards has none either if the wildcards do not clash. -/
theorem substitute_of_paired (regular : rule.Regular) (paired : ¬rule.Clashes path)
    (plain : '*' ∉ rule.target) : '*' ∉ rule.substitute := by
  intro gaps
  have held := List.count_pos_iff.mpr (regular.2.mem_iff.mp gaps)
  have unheld := List.count_eq_zero.mpr (mt regular.1.mem_iff.mpr plain)
  have counted := count_of_paired paired fun gapped => absurd gapped plain
  omega

/-- A rule whose wildcards do not clash makes another path of one that it fits. -/
theorem exists_apply_of_fits (regular : rule.Regular) (paired : ¬rule.Clashes path)
    (fits : rule.Fits path) :
    ∃ replaced, rule.Makes path replaced ∧ rule.apply path = .ok (some replaced) := by
  unfold Fits at fits
  split at fits
  · next gapped =>
    rw [apply, if_pos (hasWildcard_iff.mpr gapped)]
    exact exists_applyWild_of_agrees regular paired gapped fits
  · next plain =>
    obtain ⟨rest, whole⟩ := fits
    have same := hasWildcard_eq_false_iff.mpr (substitute_of_paired regular paired plain)
    exact ⟨_, .front plain whole.symm, (apply_eq_some_iff (hasWildcard_eq_false_iff.mpr plain)).mpr
      ⟨same, rest, whole.symm, rfl⟩⟩

/-- And it passes over the others. -/
theorem apply_of_apart (regular : rule.Regular) (paired : ¬rule.Clashes path)
    (apart : ¬rule.Fits path) : rule.apply path = .ok none := by
  unfold Fits at apart
  split at apart
  · next gapped =>
    rw [apply, if_pos (hasWildcard_iff.mpr gapped)]
    exact applyWild_of_apart regular paired apart
  · next plain =>
    have same := hasWildcard_eq_false_iff.mpr (substitute_of_paired regular paired plain)
    have absent : path.after? rule.target = none := afterLead_eq_none_iff.mpr apart
    rw [apply_of_plain (hasWildcard_eq_false_iff.mpr plain) same, absent]
    rfl

/-! ## A list of rules -/

/-- A list comes to one outcome: the first rule decides, or the others do. -/
theorem Applies.unique {first second : Except Failure Text} (one : Applies path rules first)
    (other : Applies path rules second) : first = second := by
  induction one generalizing second with
  | exhausted =>
    cases other
    rfl
  | clashed clashes =>
    cases other with
    | clashed _ => rfl
    | made paired _ _ => exact absurd clashes paired
    | passed paired _ _ => exact absurd clashes paired
  | made paired fits makes =>
    cases other with
    | clashed clashes => exact absurd clashes paired
    | made _ _ others => rw [makes.unique others]
    | passed _ apart _ => exact absurd fits apart
  | passed paired apart _ inductionHypothesis =>
    cases other with
    | clashed clashes => exact absurd clashes paired
    | made _ fits _ => exact absurd fits apart
    | passed _ _ later => exact inductionHypothesis later

/-- Trying the rules in order comes to what the list comes to. -/
theorem applies_applyFirst (regular : ∀ rule ∈ rules, rule.Regular) (path : Text) :
    Applies path rules (applyFirst rules path) := by
  induction rules with
  | nil => exact .exhausted
  | cons rule rest inductionHypothesis =>
    obtain ⟨sound, others⟩ := List.forall_mem_cons.mp regular
    rw [applyFirst]
    by_cases clashes : rule.Clashes path
    · rw [apply_of_clashes sound clashes]
      exact .clashed clashes
    · by_cases fits : rule.Fits path
      · obtain ⟨replaced, makes, done⟩ := exists_apply_of_fits sound clashes fits
        rw [done]
        exact .made clashes fits makes
      · rw [apply_of_apart sound clashes fits]
        exact .passed clashes fits (inductionHypothesis others)

/-- Rules whose wildcards stand alone make of every path what their list comes to. The empty path is
left as it is before any rule is reached, so that no clash is seen there. -/
theorem replace_eq_iff_applies (regular : ∀ rule ∈ rules, rule.Regular) (path : Text)
    (outcome : Except Failure Text) :
    replace rules path = outcome ↔
      if path = [] then outcome = .ok path else Applies path rules outcome := by
  by_cases empty : path = []
  · subst empty
    exact eq_comm
  · have looked : replace rules path = applyFirst rules path :=
      if_neg (by simpa using empty)
    rw [looked, if_neg empty]
    constructor
    · rintro rfl
      exact applies_applyFirst regular path
    · exact (applies_applyFirst regular path).unique

/-- A rule that a path is passed on from, and one with two wildcards that fits it. -/
def relocations : List PathRule :=
  [⟨"/scratch".toList, "/net/scratch".toList⟩, ⟨"/home/*/data/*".toList, "/net/*/shared/*".toList⟩]

/-- Slashes in a row between the elements do not count, and those behind them stay. -/
theorem replace_eq_iff_applies_relocated :
    (∀ rule ∈ relocations, rule.Regular) ∧
      Applies "//home/alice//data/run7//file.nc".toList relocations
        (.ok "/net/alice/shared/run7//file.nc".toList) := by
  have regular : ∀ rule ∈ relocations, rule.Regular := by decide
  have told := (replace_eq_iff_applies regular "//home/alice//data/run7//file.nc".toList
    (.ok "/net/alice/shared/run7//file.nc".toList)).mp (by decide)
  rw [if_neg (by decide)] at told
  exact ⟨regular, told⟩

end PathRule

end SignalAccess

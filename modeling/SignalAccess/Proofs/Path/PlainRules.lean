import SignalAccess.Path.Rules
import SignalAccess.Proofs.Text.Elements

/-!
# Rules without wildcards

A target without wildcards is compared with the front of a path character by character, and a target
with wildcards element by element. Where the target of the first kind ends within an element of the
path, the two disagree: the rule for `/scratch` takes `/scratch2/f` for a path below it. Everywhere
else, at a slash and at the end of the path, both see the same front.
-/

namespace SignalAccess

namespace PathRule

variable {rule : PathRule} {path replaced : Text}

/-- Whether the target of a rule ends where an element of the path does: the path is the target, or
goes on with a slash. -/
def EndsElement (rule : PathRule) (path : Text) : Prop :=
  path = rule.target ∨ ∃ rest, path = rule.target ++ '/' :: rest

/-- A target ends an element of a path exactly if what follows it stands at a boundary. -/
theorem endsElement_append_iff {rest : Text} (whole : path = rule.target ++ rest) :
    rule.EndsElement path ↔ Text.AtBoundary rest := by
  subst whole
  simp [EndsElement, Text.AtBoundary]

/-! ## What such a rule makes of a path -/

/-- A text has a wildcard exactly if it holds the character for one. -/
theorem hasWildcard_iff {t : Text} : t.hasWildcard = true ↔ '*' ∈ t := by
  rw [Text.hasWildcard, List.contains_iff_mem]

/-- A text has no wildcard exactly if it does not hold the character for one. -/
theorem hasWildcard_eq_false_iff {t : Text} : t.hasWildcard = false ↔ '*' ∉ t := by
  rw [Bool.eq_false_iff, Ne, hasWildcard_iff]

/-- A rule without wildcards puts its substitute in the place of its target, where a path starts
with it. -/
theorem apply_of_plain (plain : rule.target.hasWildcard = false)
    (same : rule.substitute.hasWildcard = false) (path : Text) :
    rule.apply path = .ok ((path.after? rule.target).map (rule.substitute ++ ·)) := by
  simp [apply, plain, same]

/-- A wildcard in the substitute is refused whatever the path is. -/
theorem apply_of_plain_target (plain : rule.target.hasWildcard = false)
    (wild : rule.substitute.hasWildcard = true) (path : Text) :
    rule.apply path = .error (.syntaxError .wildcardWithoutTarget) := by
  simp [apply, plain, wild]

/-- The substitute takes the place of the target in front of the path. -/
theorem apply_eq_some_iff (plain : rule.target.hasWildcard = false) :
    rule.apply path = .ok (some replaced) ↔ rule.substitute.hasWildcard = false ∧
      ∃ rest, path = rule.target ++ rest ∧ replaced = rule.substitute ++ rest := by
  cases same : rule.substitute.hasWildcard with
  | true => simp [apply_of_plain_target plain same]
  | false =>
    rw [apply_of_plain plain same, Except.ok.injEq, Option.map_eq_some_iff]
    simp only [Text.after?_eq_some_iff, true_and, @eq_comm _ replaced]

/-! ## Targets compared element by element -/

/-- Elements without wildcards fit the path that starts with them. -/
theorem fits_iff_prefix {target elements : List Text}
    (plain : ∀ element ∈ target, isWild element = false) :
    fits target elements = true ↔ target <+: elements := by
  induction target generalizing elements with
  | nil => simp [fits]
  | cons element target inductionHypothesis =>
    obtain ⟨first, others⟩ := List.forall_mem_cons.mp plain
    cases elements with
    | nil => simp [fits]
    | cons other elements => simp [fits, first, inductionHypothesis others, List.cons_prefix_cons]

/-- An element is a wildcard only if its text holds one. -/
theorem isWild_of_plain {t : Text} (plain : t.hasWildcard = false) :
    ∀ element ∈ t.elements, isWild element = false := by
  intro element among
  have absent : '*' ∉ t := hasWildcard_eq_false_iff.mp plain
  cases element with
  | nil => rfl
  | cons c element =>
    refine Bool.eq_false_iff.mpr fun wild => absent ?_
    have first : c = '*' := by simpa [isWild] using wild
    exact (Text.mem_iff_exists_mem_elements (by decide)).mpr ⟨_, among, by simp [first]⟩

/-- A rule without wildcards rewrites the paths that start with its target, wherever the target ends
in them. It ends where an element of the path does exactly if no other character follows than a
slash, and exactly if the target fits the path element by element, as a target with wildcards has
to. -/
theorem endsElement_iff_fits (plain : rule.target.hasWildcard = false)
    (ends : rule.target.getLast? ≠ some '/') (path : Text) :
    (∀ replaced, rule.apply path = .ok (some replaced) ↔ rule.substitute.hasWildcard = false ∧
      ∃ rest, path = rule.target ++ rest ∧ replaced = rule.substitute ++ rest) ∧
    ∀ replaced, rule.apply path = .ok (some replaced) →
      (rule.EndsElement path ↔ ∀ c rest, path = rule.target ++ c :: rest → c = '/') ∧
      (rule.target ≠ [] →
        (rule.EndsElement path ↔ fits rule.target.elements path.elements = true)) := by
  refine ⟨fun replaced => apply_eq_some_iff plain, fun replaced rewritten => ?_⟩
  obtain ⟨-, rest, whole, -⟩ := (apply_eq_some_iff plain).mp rewritten
  have bounded := endsElement_append_iff whole
  constructor
  · rw [bounded, whole]
    constructor
    · rintro boundary c back same
      exact boundary.head? (by rw [List.append_cancel_left same]; rfl)
    · intro slash
      cases rest with
      | nil => exact .inl rfl
      | cons c back => exact .inr ⟨back, by rw [slash c back rfl]⟩
  · intro given
    rw [bounded, fits_iff_prefix (isWild_of_plain plain), whole,
      Text.elements_prefix_append_iff given ends]

/-- The rule that shows the scratch directory under another name. -/
def scratch : PathRule := ⟨"/scratch".toList, "/net/scratch".toList⟩

/-- The same rule in front of a path below its target, and of one beside it. -/
theorem endsElement_iff_fits_scratch :
    scratch.target.hasWildcard = false ∧ scratch.target.getLast? ≠ some '/' ∧
      (scratch.apply "/scratch/f".toList = .ok (some "/net/scratch/f".toList) ∧
        scratch.EndsElement "/scratch/f".toList) ∧
      scratch.apply "/scratch2/f".toList = .ok (some "/net/scratch2/f".toList) ∧
        ¬scratch.EndsElement "/scratch2/f".toList := by
  have plain : scratch.target.hasWildcard = false := by decide
  have ends : scratch.target.getLast? ≠ some '/' := by decide
  have below := endsElement_iff_fits plain ends "/scratch/f".toList
  have beside := endsElement_iff_fits plain ends "/scratch2/f".toList
  have belowApplied : scratch.apply "/scratch/f".toList = .ok (some "/net/scratch/f".toList) :=
    (below.1 _).mpr ⟨by decide, "/f".toList, by decide, by decide⟩
  have besideApplied : scratch.apply "/scratch2/f".toList = .ok (some "/net/scratch2/f".toList) :=
    (beside.1 _).mpr ⟨by decide, "2/f".toList, by decide, by decide⟩
  refine ⟨plain, ends, ⟨belowApplied, ?_⟩, besideApplied, ?_⟩
  · exact ((below.2 _ belowApplied).2 (by decide)).mpr (by decide)
  · rw [(beside.2 _ besideApplied).2 (by decide)]
    decide

/-- A path beside the target is rewritten as well. -/
theorem not_forall_endsElement : ¬∀ (rule : PathRule) (path replaced : Text),
    rule.target.hasWildcard = false → rule.target.getLast? ≠ some '/' →
      rule.apply path = .ok (some replaced) → rule.EndsElement path := by
  intro all
  have ended := all scratch "/scratch2/f".toList "/net/scratch2/f".toList (by decide) (by decide)
    (by decide)
  rcases ended with same | ⟨rest, longer⟩
  · exact absurd same (by decide)
  · have whole : "/scratch2/f".toList = scratch.target ++ "2/f".toList := by decide
    rw [whole, List.append_cancel_left_eq] at longer
    exact absurd (List.cons.inj longer).1 (by decide)

end PathRule

end SignalAccess

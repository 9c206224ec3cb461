import Mathlib.Data.List.Count
import SignalAccess.Path.Rules
import SignalAccess.Proofs.Text.Elements

/-!
# Wildcards of rules

Where the wildcards of a rule stand alone in their elements, a target is a row of elements with
gaps: it agrees with the paths that have its other elements at the same places, and each of its gaps
takes the element of the path at its place. The gaps of a substitute are filled with those elements,
the first with the first and so on.
-/

namespace SignalAccess

namespace PathRule

variable {t : Text} {target path substitute values filled : List Text} {element : Text}

/-- The element that stands for an element of a path. -/
def wild : Text := ['*']

/-- Whether the wildcards of a text stand alone: an element that holds one is nothing else. -/
def StandsAlone (t : Text) : Prop := ∀ element ∈ t.elements, '*' ∈ element → element = wild

instance (t : Text) : Decidable (StandsAlone t) :=
  inferInstanceAs (Decidable (∀ element ∈ t.elements, '*' ∈ element → element = wild))

/-- Whether the wildcards of a rule stand alone. -/
def Regular (rule : PathRule) : Prop := StandsAlone rule.target ∧ StandsAlone rule.substitute

instance (rule : PathRule) : Decidable rule.Regular :=
  inferInstanceAs (Decidable (StandsAlone rule.target ∧ StandsAlone rule.substitute))

/-! ## Which elements are wildcards -/

/-- The wildcard is a wildcard. -/
theorem isWild_wild : isWild wild = true := rfl

/-- Whether the wildcard is the only one of the elements that starts as it does. -/
def Gapped (elements : List Text) : Prop :=
  ∀ element ∈ elements, isWild element = true ↔ element = wild

/-- If the wildcards of a text stand alone, each element that starts as one is one. -/
theorem StandsAlone.gapped (alone : StandsAlone t) : Gapped t.elements := by
  intro element among
  constructor
  · intro starts
    obtain ⟨rest, rfl⟩ := List.head?_eq_some_iff.mp (eq_of_beq starts)
    exact alone _ among List.mem_cons_self
  · rintro rfl
    exact isWild_wild

/-- A text that holds a wildcard has the wildcard among its elements. -/
theorem StandsAlone.mem_iff (alone : StandsAlone t) : '*' ∈ t ↔ wild ∈ t.elements := by
  rw [Text.mem_iff_exists_mem_elements (by decide)]
  constructor
  · rintro ⟨element, among, held⟩
    rwa [← alone element among held]
  · intro among
    exact ⟨wild, among, List.mem_cons_self⟩

/-- Wildcards that stand alone are counted as elements. -/
theorem StandsAlone.wildcards_eq (alone : StandsAlone t) :
    wildcards t = t.elements.count wild := by
  rw [wildcards, ← List.countP_eq_length_filter, List.count]
  refine List.countP_congr fun element among => ?_
  rw [alone.gapped element among, beq_iff_eq]

/-! ## Targets that agree with a path -/

/-- Whether a target agrees with a path: the path is long enough, and has the elements of the target
that are no wildcards at their places. -/
structure Agrees (target path : List Text) : Prop where
  long : target.length ≤ path.length
  same : ∀ (i : Nat) (element : Text), target[i]? = some element → element ≠ wild →
    path[i]? = some element

/-- Elements agree with a target if the first does, or meets a wildcard, and the others do. -/
theorem agrees_cons_iff {first : Text} : Agrees (element :: target) (first :: path) ↔
    (element = wild ∨ element = first) ∧ Agrees target path := by
  constructor
  · rintro ⟨long, same⟩
    refine ⟨?_, Nat.le_of_succ_le_succ long, fun i => same (i + 1)⟩
    by_cases gap : element = wild
    · exact .inl gap
    · exact .inr (Option.some.inj (same 0 element rfl gap)).symm
  · rintro ⟨lead, long, same⟩
    refine ⟨Nat.succ_le_succ long, fun i other => ?_⟩
    cases i with
    | zero =>
      intro here literal
      obtain rfl : element = other := Option.some.inj here
      exact congrArg some (lead.resolve_left literal).symm
    | succ i => exact same i other

/-- Fitting a target is agreeing with it element by element. -/
theorem fits_iff_agrees (gapped : Gapped target) :
    fits target path = true ↔ Agrees target path := by
  induction target generalizing path with
  | nil => exact ⟨fun _ => ⟨Nat.zero_le _, nofun⟩, fun _ => rfl⟩
  | cons element target inductionHypothesis =>
    obtain ⟨first, others⟩ := List.forall_mem_cons.mp gapped
    cases path with
    | nil => exact ⟨nofun, fun agrees => absurd agrees.long (Nat.not_succ_le_zero _)⟩
    | cons piece path =>
      rw [fits, Bool.and_eq_true, Bool.or_eq_true, first, beq_iff_eq, inductionHypothesis others,
        agrees_cons_iff]

/-! ## Gaps that are filled -/

/-- How the elements of a substitute are filled: its other elements stay at their places, and each
of its wildcards gives place to the element of the path that the wildcard of the same number in the
target stands for. -/
structure Fills (target path substitute filled : List Text) : Prop where
  length : filled.length = substitute.length
  kept : ∀ (j : Nat) (element : Text), substitute[j]? = some element → element ≠ wild →
    filled[j]? = some element
  taken : ∀ k < substitute.count wild,
    filled[substitute.idxOfNth wild k]? = path[target.idxOfNth wild k]?

/-- There is one way to fill a substitute. -/
theorem Fills.unique {others : List Text} (fills : Fills target path substitute filled)
    (other : Fills target path substitute others) : filled = others := by
  refine List.ext_getElem? fun j => ?_
  by_cases inside : j < substitute.length
  · by_cases gap : substitute[j] = wild
    · have number := List.idxOfNth_countBefore_of_lt_length_of_beq (beq_of_eq gap)
      have below := List.countBefore_lt_count_of_lt_length_of_beq (beq_of_eq gap)
      rw [← number, fills.taken _ below, other.taken _ below]
    · have here := List.getElem?_eq_getElem inside
      rw [fills.kept j _ here gap, other.kept j _ here gap]
  · rw [List.getElem?_eq_none (by rw [fills.length]; omega),
      List.getElem?_eq_none (by rw [other.length]; omega)]

/-- The elements of a substitute with values in the places of its wildcards. -/
def filling : (substitute values : List Text) → List Text
  | [], _ => []
  | element :: rest, values =>
    if isWild element then values.headD [] :: filling rest values.tail
    else element :: filling rest values

/-- Filling a substitute writes its filled elements behind slashes. -/
theorem fill_eq_flatMap (substitute values : List Text) :
    fill substitute values = (filling substitute values).flatMap ('/' :: ·) := by
  induction substitute generalizing values with
  | nil => rfl
  | cons element rest inductionHypothesis =>
    rw [fill, filling]
    split <;> simp [inductionHypothesis]

/-- Filling changes no number of elements. -/
theorem length_filling (substitute values : List Text) :
    (filling substitute values).length = substitute.length := by
  induction substitute generalizing values with
  | nil => rfl
  | cons element rest inductionHypothesis =>
    rw [filling]
    split <;> simp [inductionHypothesis]

/-- An element that is no wildcard stays in its place. -/
theorem getElem?_filling_of_ne (gapped : Gapped substitute) {j : Nat}
    (here : substitute[j]? = some element) (literal : element ≠ wild) :
    (filling substitute values)[j]? = some element := by
  induction substitute generalizing values j with
  | nil => cases here
  | cons first rest inductionHypothesis =>
    obtain ⟨lead, others⟩ := List.forall_mem_cons.mp gapped
    rw [filling]
    cases j with
    | zero =>
      obtain rfl : first = element := Option.some.inj here
      rw [if_neg (by rwa [lead])]
      rfl
    | succ j =>
      have later : rest[j]? = some element := here
      split
      · exact inductionHypothesis others later
      · exact inductionHypothesis others later

/-- In the place of the k-th wildcard stands the k-th value. -/
theorem getElem?_filling (gapped : Gapped substitute) {k : Nat}
    (below : k < substitute.count wild) :
    (filling substitute values)[substitute.idxOfNth wild k]? = some (values.getD k []) := by
  induction substitute generalizing values k with
  | nil => cases below
  | cons first rest inductionHypothesis =>
    obtain ⟨lead, others⟩ := List.forall_mem_cons.mp gapped
    rw [filling]
    by_cases gap : first = wild
    · subst gap
      rw [if_pos isWild_wild]
      cases k with
      | zero => cases values <;> simp
      | succ k =>
        rw [List.count_cons_self] at below
        rw [List.idxOfNth_cons_succ_of_beq (beq_self_eq_true wild), List.getElem?_cons_succ,
          inductionHypothesis others (Nat.lt_of_succ_lt_succ below)]
        cases values <;> simp
    · rw [if_neg (by rwa [lead])]
      rw [List.count_cons_of_ne gap] at below
      rw [List.idxOfNth_cons_of_not_beq (beq_eq_false_iff_ne.mpr gap), List.getElem?_cons_succ,
        inductionHypothesis others below]

/-- The wildcards of a target take the elements of a path at their places. By induction on the
target: a wildcard in front takes the first element, and the number of every other one goes down by
one. -/
theorem getElem?_captured (gapped : Gapped target) (long : target.length ≤ path.length) {k : Nat}
    (below : k < target.count wild) :
    (captured target path)[k]? = path[target.idxOfNth wild k]? := by
  induction target generalizing path k with
  | nil => cases below
  | cons first target inductionHypothesis =>
    obtain ⟨lead, others⟩ := List.forall_mem_cons.mp gapped
    cases path with
    | nil => exact absurd long (Nat.not_succ_le_zero _)
    | cons piece path =>
      have shorter : target.length ≤ path.length := Nat.le_of_succ_le_succ long
      by_cases gap : first = wild
      · subst gap
        have whole : captured (wild :: target) (piece :: path) = piece :: captured target path :=
          rfl
        rw [whole]
        cases k with
        | zero => simp
        | succ k =>
          rw [List.count_cons_self] at below
          have later := inductionHypothesis others shorter (Nat.lt_of_succ_lt_succ below)
          rw [List.idxOfNth_cons_succ_of_beq (beq_self_eq_true wild), List.getElem?_cons_succ,
            List.getElem?_cons_succ, later]
      · have unwild : isWild first = false := Bool.eq_false_iff.mpr (mt lead.mp gap)
        have whole : captured (first :: target) (piece :: path) = captured target path := by
          simp [captured, unwild]
        rw [List.count_cons_of_ne gap] at below
        rw [whole, List.idxOfNth_cons_of_not_beq (beq_eq_false_iff_ne.mpr gap),
          List.getElem?_cons_succ, inductionHypothesis others shorter below]

/-- A substitute with as many wildcards as its target is filled with what these stand for. -/
theorem fills_filling (targetGapped : Gapped target) (substituteGapped : Gapped substitute)
    (same : substitute.count wild = target.count wild) (long : target.length ≤ path.length) :
    Fills target path substitute (filling substitute (captured target path)) where
  length := length_filling _ _
  kept j element here literal := getElem?_filling_of_ne substituteGapped here literal
  taken k below := by
    have place : target.idxOfNth wild k < path.length :=
      Nat.lt_of_lt_of_le (List.idxOfNth_lt_length_of_lt_count (same ▸ below)) long
    rw [getElem?_filling substituteGapped below, List.getD_eq_getElem?_getD,
      getElem?_captured targetGapped long (same ▸ below), List.getElem?_eq_getElem place]
    rfl

end PathRule

end SignalAccess

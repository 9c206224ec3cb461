import Mathlib.Data.List.Chain
import SignalAccess.Data.Line
import SignalAccess.Proofs.Number.Integers

/-!
# Integers on a line

Integers that go on by one step are the first one and so many steps. Where nothing is allowed for
imprecision, the numbers of exact integers lie on a line if there are three of them and the gaps
between them are all rounded to one number; small integers, whose gaps are exact, only if they go on
by one step. The line that is fitted to these starts at the first one, and its step is theirs: the
way from the first to the last is divided into as many steps as were taken, and nothing remains.
-/

namespace SignalAccess

/-- So many integers, each of them the one before it and a step. -/
def progression (step : Int) : (length : Nat) → (first : Int) → List Int
  | 0, _ => []
  | length + 1, first => first :: progression step length (first + step)

/-- The differences between the neighbours in a list of integers. -/
def gaps (values : List Int) : List Int := List.zipWith (· - ·) values.tail values

variable {step first : Int} {values : List Int}

/-- A progression has the length that it is made for. -/
theorem length_progression (step : Int) (length : Nat) (first : Int) :
    (progression step length first).length = length := by
  induction length generalizing first with
  | zero => rfl
  | succ length inductionHypothesis => exact congrArg (· + 1) (inductionHypothesis (first + step))

/-- The last integer of a progression lies one step less than its length away from the first. -/
theorem getLast?_progression (step : Int) (length : Nat) (first : Int) :
    (progression step (length + 1) first).getLast? = some (first + step * length) := by
  induction length generalizing first with
  | zero => simp [progression]
  | succ length inductionHypothesis =>
    rw [progression, progression, List.getLast?_cons_cons, ← progression, inductionHypothesis,
      Int.natCast_add, Int.natCast_one, Int.mul_add, Int.mul_one]
    congr 1
    omega

/-- Three integers of a progression are its first one, the next, and the one behind. -/
theorem mem_progression (step first : Int) {length : Nat} (enough : 3 ≤ length) :
    first ∈ progression step length first ∧ first + step ∈ progression step length first ∧
      first + step + step ∈ progression step length first := by
  obtain ⟨rest, rfl⟩ : ∃ rest, length = rest + 3 := ⟨length - 3, by omega⟩
  simp [progression]

/-- Two integers of a progression tell its step. -/
theorem step_eq_of_progression_eq {length : Nat} {start other : Int} (enough : 2 ≤ length)
    (same : progression step length first = progression other length start) : step = other := by
  obtain ⟨rest, rfl⟩ : ∃ rest, length = rest + 2 := ⟨length - 2, by omega⟩
  obtain ⟨starts, later⟩ := List.cons.inj same
  have next : first + step = start + other := (List.cons.inj later).1
  omega

/-- A progression that does not go down stays above its first integer. -/
theorem le_of_mem_progression (up : 0 ≤ step) {length : Nat} {i : Int}
    (among : i ∈ progression step length first) : first ≤ i := by
  induction length generalizing first with
  | zero => cases among
  | succ length inductionHypothesis =>
    rcases List.mem_cons.mp among with rfl | later
    · exact Int.le_refl _
    · have := inductionHypothesis later
      omega

/-- A progression of two integers or more ascends exactly if its step does not go down. -/
theorem pairwise_progression_iff {length : Nat} (enough : 2 ≤ length) :
    (progression step length first).Pairwise (· ≤ ·) ↔ 0 ≤ step := by
  constructor
  · intro ascending
    obtain ⟨rest, rfl⟩ : ∃ rest, length = rest + 2 := ⟨length - 2, by omega⟩
    have next := (List.pairwise_cons.mp ascending).1 (first + step) List.mem_cons_self
    omega
  · intro up
    clear enough
    induction length generalizing first with
    | zero => exact List.Pairwise.nil
    | succ length inductionHypothesis =>
      refine List.pairwise_cons.mpr ⟨fun i later => ?_, inductionHypothesis⟩
      have := le_of_mem_progression up later
      omega

/-- Without a step there is one integer only. -/
theorem progression_zero (length : Nat) (first : Int) :
    progression 0 length first = List.replicate length first := by
  induction length with
  | zero => rfl
  | succ length inductionHypothesis =>
    rw [progression, Int.add_zero, inductionHypothesis, List.replicate_succ]

/-- Integers go on by one step exactly if they are its progression. -/
theorem isChain_iff_eq_progression (first : Int) (others : List Int) :
    (first :: others).IsChain (fun a b => b - a = step) ↔
      first :: others = progression step (others.length + 1) first := by
  induction others generalizing first with
  | nil => simp [progression]
  | cons second others inductionHypothesis =>
    have unfolded : progression step (others.length + 1 + 1) first =
        first :: progression step (others.length + 1) (first + step) := rfl
    rw [List.isChain_cons_cons, inductionHypothesis, List.length_cons, unfolded, List.cons.injEq]
    constructor
    · rintro ⟨rfl, same⟩
      refine ⟨rfl, ?_⟩
      rwa [show first + (second - first) = second by omega]
    · rintro ⟨-, same⟩
      have next : second = first + step := (List.cons.inj same).1
      subst next
      exact ⟨by omega, same⟩

/-- Integers go on by one step exactly if they are a progression by it. -/
theorem isChain_iff_exists_progression (nonempty : values ≠ []) :
    values.IsChain (fun a b => b - a = step) ↔
      ∃ first, values = progression step values.length first := by
  obtain ⟨first, others, rfl⟩ := List.exists_cons_of_ne_nil nonempty
  rw [isChain_iff_eq_progression, List.length_cons]
  constructor
  · intro same
    exact ⟨first, same⟩
  · rintro ⟨start, same⟩
    obtain rfl : first = start := (List.cons.inj same).1
    exact same

/-- Where a progression starts and where it ends. -/
theorem ends_of_progression (nonempty : values ≠ [])
    (same : values = progression step values.length first) :
    values.head? = some first ∧
      values.getLast? = some (first + step * (values.length - 1 : Nat)) := by
  obtain ⟨count, counted⟩ : ∃ count, values.length = count + 1 :=
    Nat.exists_eq_succ_of_ne_zero (Nat.ne_of_gt (List.length_pos_of_ne_nil nonempty))
  rw [counted] at same ⊢
  rw [same, getLast?_progression]
  exact ⟨rfl, rfl⟩

/-- Integers go on by one step exactly if every gap between neighbours is that step. -/
theorem isChain_iff_forall_gaps :
    values.IsChain (fun a b => b - a = step) ↔ ∀ gap ∈ gaps values, gap = step := by
  induction values with
  | nil => simp [gaps]
  | cons first others inductionHypothesis =>
    cases others with
    | nil => simp [gaps]
    | cons second others =>
      rw [List.isChain_cons_cons, inductionHypothesis]
      simp [gaps]

/-- The steps between integers are all the same exactly if each of them is the one before it. -/
theorem exists_isChain_iff_gaps :
    (∃ step, values.IsChain fun a b => b - a = step) ↔ (gaps values).IsChain fun a b => a = b := by
  simp only [isChain_iff_forall_gaps]
  cases gaps values with
  | nil => simp
  | cons gap others =>
    rw [List.isChain_cons_eq_iff_eq_replicate, List.eq_replicate_iff]
    constructor
    · rintro ⟨step, same⟩
      obtain rfl := same gap List.mem_cons_self
      exact ⟨rfl, fun later among => same later (List.mem_cons_of_mem _ among)⟩
    · rintro ⟨-, same⟩
      exact ⟨gap, List.forall_mem_cons.mpr ⟨rfl, same⟩⟩

/-- A gap is at most twice as large as the integers around it. -/
theorem natAbs_le_of_mem_gaps {bound : Nat} (small : ∀ i ∈ values, i.natAbs ≤ bound) :
    ∀ gap ∈ gaps values, gap.natAbs ≤ 2 * bound := by
  induction values with
  | nil => simp [gaps]
  | cons first others inductionHypothesis =>
    cases others with
    | nil => simp [gaps]
    | cons second others =>
      have firstSmall := small first List.mem_cons_self
      have secondSmall := small second (List.mem_cons_of_mem first List.mem_cons_self)
      intro gap among
      rcases List.mem_cons.mp among with rfl | among
      · show (second - first).natAbs ≤ 2 * bound
        omega
      · exact inductionHypothesis (fun i later => small i (List.mem_cons_of_mem first later)) gap among

/-! ## The numbers of integers -/

open Binary64

/-- Integers so small that their differences are exact as numbers. -/
def Small (values : List Int) : Prop := ∀ i ∈ values, i.natAbs < 1 <<< 51

/-- Small integers are exact as numbers. -/
theorem Small.exact (small : Small values) : ∀ i ∈ values, i.natAbs ≤ 1 <<< 53 := by
  intro i among
  have := small i among
  omega

namespace Line

/-- A line is fitted to three values or more if none of them is too great and the steps are all the
same. It starts at the first value, and its step is the mean. -/
theorem fit?_eq_some_iff {α : Type} {arithmetic : Arithmetic α} {rule : LineRule α} {values : List α}
    {line : Line α} :
    fit? arithmetic rule values = some line ↔
      3 ≤ values.length ∧ (∀ value ∈ values, isBeyond arithmetic rule value = false) ∧
        isRegular arithmetic rule values = true ∧
        ∃ first last, values.head? = some first ∧ values.getLast? = some last ∧
          line = ⟨first, rule.settle (arithmetic.div (arithmetic.sub last first)
            (arithmetic.ofNat (values.length - 1)))⟩ := by
  have permitted : (decide (values.length < 3) || values.any (isBeyond arithmetic rule)) = false ↔
      3 ≤ values.length ∧ ∀ value ∈ values, isBeyond arithmetic rule value = false := by
    rw [Bool.or_eq_false_iff, decide_eq_false_iff_not, Nat.not_lt, List.any_eq_false]
    simp only [Bool.not_eq_true]
  constructor
  · intro fitted
    unfold fit? at fitted
    split at fitted
    · next first last start stop =>
      split at fitted
      · cases fitted
      · next enough =>
        obtain ⟨long, within⟩ := permitted.mp (Bool.eq_false_iff.mpr enough)
        split at fitted
        · next regular =>
          exact ⟨long, within, regular, first, last, start, stop, (Option.some.inj fitted).symm⟩
        · cases fitted
    · cases fitted
  · rintro ⟨long, within, regular, first, last, start, stop, rfl⟩
    rw [fit?, start, stop]
    dsimp only
    rw [permitted.mpr ⟨long, within⟩, if_neg Bool.false_ne_true, if_pos regular]

/-- The differences of exact integers are the numbers of their gaps. -/
theorem differences_ofInt (exact : ∀ i ∈ values, i.natAbs ≤ 1 <<< 53) :
    differences .rounded (values.map ofInt) = (gaps values).map ofInt := by
  induction values with
  | nil => rfl
  | cons first others inductionHypothesis =>
    cases others with
    | nil => rfl
    | cons second others =>
      have later : ∀ i ∈ second :: others, i.natAbs ≤ 1 <<< 53 := fun i among =>
        exact i (List.mem_cons_of_mem first among)
      show (ofInt second).sub (ofInt first) :: differences .rounded ((second :: others).map ofInt) =
        ofInt (second - first) :: (gaps (second :: others)).map ofInt
      rw [sub_ofInt (later second List.mem_cons_self) (exact first List.mem_cons_self),
        inductionHypothesis later]

variable {rule : LineRule Binary64}

/-- Numbers of integers are regular if neighbours among them are rounded to the same number. -/
theorem all_changes_ofInt_iff (precise : rule.precision = zero)
    (bounded : ∀ i ∈ values, i.natAbs ≤ 1 <<< 54) :
    ((differences .rounded (values.map ofInt)).all fun change =>
      !change.abs.exceeds rule.precision) = true ↔
      values.IsChain fun a b => nearestInt a = nearestInt b := by
  induction values with
  | nil => simp [differences]
  | cons first others inductionHypothesis =>
    cases others with
    | nil => simp [differences]
    | cons second others =>
      have later : ∀ i ∈ second :: others, i.natAbs ≤ 1 <<< 54 := fun i among =>
        bounded i (List.mem_cons_of_mem first among)
      have unfolded : differences .rounded ((first :: second :: others).map ofInt) =
          (ofInt second).sub (ofInt first) :: differences .rounded ((second :: others).map ofInt) := rfl
      rw [unfolded, List.all_cons, Bool.and_eq_true, inductionHypothesis later, precise,
        exceeds_abs_sub_ofInt (later second List.mem_cons_self) (bounded first List.mem_cons_self),
        List.isChain_cons_cons, Bool.not_eq_true', decide_eq_false_iff_not, not_not, eq_comm]

/-- The numbers of exact integers are regular exactly if the gaps between them are all rounded to the
same number. -/
theorem isRegular_ofInt_iff (precise : rule.precision = zero)
    (exact : ∀ i ∈ values, i.natAbs ≤ 1 <<< 53) :
    isRegular .rounded rule (values.map ofInt) = true ↔
      (gaps values).IsChain fun a b => nearestInt a = nearestInt b := by
  rw [isRegular, differences_ofInt exact]
  exact all_changes_ofInt_iff precise (natAbs_le_of_mem_gaps exact)

/-- The numbers of small integers are regular exactly if the integers go on by one step. -/
theorem isRegular_ofInt_iff_of_small (precise : rule.precision = zero) (small : Small values) :
    isRegular .rounded rule (values.map ofInt) = true ↔
      ∃ step, values.IsChain fun a b => b - a = step := by
  have exact : ∀ gap ∈ gaps values, nearestInt gap = gap := by
    intro gap among
    have := natAbs_le_of_mem_gaps (fun i member => Nat.le_of_lt (small i member)) gap among
    exact nearestInt_of_le (by omega)
  have same : ∀ a ∈ gaps values, ∀ b ∈ gaps values, nearestInt a = nearestInt b ↔ a = b := by
    intro a first b second
    rw [exact a first, exact b second]
  rw [isRegular_ofInt_iff precise small.exact, exists_isChain_iff_gaps]
  constructor
  · exact List.IsChain.imp_of_mem_imp fun a b first second => (same a first b second).mp
  · exact List.IsChain.imp_of_mem_imp fun a b first second => (same a first b second).mpr

/-- The way from the first integer to the last is divided into as many steps as were taken. -/
theorem mean_ofInt {count : Nat} (positive : count ≠ 0) (start : first.natAbs < 1 <<< 51)
    (stop : (first + step * count).natAbs < 1 <<< 51) :
    ((ofInt (first + step * count)).sub (ofInt first)).div (ofInt count) = ofInt step := by
  rw [sub_ofInt (by omega) (by omega), show first + step * count - first = step * count by omega]
  by_cases still : step = 0
  · subst still
    rw [Int.zero_mul]
    exact zero_div_ofInt positive
  · have way : (step * count).natAbs < 1 <<< 52 := by omega
    have taken : count ≤ (step * count).natAbs := by
      rw [Int.natAbs_mul, Int.natAbs_natCast]
      exact Nat.le_mul_of_pos_left count (Int.natAbs_pos.mpr still)
    exact div_ofInt (by omega) (by omega) positive

/-- A line is fitted to integers that are regular as numbers only if they go on by one step. -/
theorem fit?_ofInt_iff_of_regular (within : ∀ i ∈ values, isBeyond .rounded rule (ofInt i) = false)
    (regular : isRegular .rounded rule (values.map ofInt) = true ↔
      ∃ step, values.IsChain fun a b => b - a = step) {line : Line Binary64} :
    fit? .rounded rule (values.map ofInt) = some line ↔
      3 ≤ values.length ∧ ∃ first step, values = progression step values.length first ∧
        line = ⟨ofInt first, rule.settle (((ofInt (first + step * (values.length - 1 : Nat))).sub
          (ofInt first)).div (ofInt (values.length - 1 : Nat)))⟩ := by
  rw [fit?_eq_some_iff, regular, List.length_map]
  refine and_congr_right fun enough => ?_
  have nonempty : values ≠ [] := List.ne_nil_of_length_pos (Nat.zero_lt_of_lt enough)
  have ends {first step : Int} (same : values = progression step values.length first) :
      (values.map ofInt).head? = some (ofInt first) ∧ (values.map ofInt).getLast? =
        some (ofInt (first + step * (values.length - 1 : Nat))) := by
    obtain ⟨head, last⟩ := ends_of_progression nonempty same
    rw [List.head?_map, List.getLast?_map, head, last]
    exact ⟨rfl, rfl⟩
  constructor
  · rintro ⟨-, ⟨step, chain⟩, start, stop, starts, stops, rfl⟩
    obtain ⟨first, same⟩ := (isChain_iff_exists_progression nonempty).mp chain
    obtain ⟨head, last⟩ := ends same
    obtain rfl := Option.some.inj (head.symm.trans starts)
    obtain rfl := Option.some.inj (last.symm.trans stops)
    exact ⟨first, step, same, rfl⟩
  · rintro ⟨first, step, same, rfl⟩
    obtain ⟨head, last⟩ := ends same
    exact ⟨List.forall_mem_map.mpr within,
      ⟨step, (isChain_iff_exists_progression nonempty).mpr ⟨first, same⟩⟩, _, _, head, last, rfl⟩

/-- The line of small integers is known from the first of them and from their step. -/
theorem fit?_ofInt_iff (precise : rule.precision = zero) (unlimited : rule.limit = none)
    (small : Small values) {line : Line Binary64} :
    fit? .rounded rule (values.map ofInt) = some line ↔
      3 ≤ values.length ∧ ∃ first step, values = progression step values.length first ∧
        line = ⟨ofInt first, rule.settle (ofInt step)⟩ := by
  have within : ∀ i ∈ values, isBeyond .rounded rule (ofInt i) = false := by
    simp [isBeyond, unlimited]
  rw [fit?_ofInt_iff_of_regular within (isRegular_ofInt_iff_of_small precise small)]
  refine and_congr_right fun enough => exists_congr fun first => exists_congr fun step => ?_
  refine and_congr_right fun same => ?_
  have nonempty : values ≠ [] := List.ne_nil_of_length_pos (Nat.zero_lt_of_lt enough)
  obtain ⟨head, last⟩ := ends_of_progression nonempty same
  rw [mean_ofInt (by omega) (small first (List.mem_of_head? head))
    (small _ (List.mem_of_getLast? last))]

end Line

end SignalAccess

import Mathlib.Data.Int.ConditionallyCompleteOrder
import Mathlib.Data.Rat.Floor
import SignalAccess.Request.Slice

/-!
# What slices select

A selection is a set of indices in a dimension of any length, together with the bounds that it names. The
slice for it holds bounds some of which stand for the end of a dimension that is not known yet, and these
are resolved once it is known. The two agree: the slice resolves exactly in the dimensions that hold the
selected indices and the named bounds, and what it resolves to steps through these indices and no others.
-/

namespace SignalAccess

namespace Slice

variable {length : Int} {slice : Slice} {extent : Extent}

/-! ## The indices of an extent -/

section Between

variable {start stop stride : Int}

/-- The indices from one bound to another, both included, at a stride. -/
def stepped (start stop stride : Int) : Set Int := {i | start ≤ i ∧ i ≤ stop ∧ stride ∣ i - start}

/-- The indices that are reached from the start of an extent in fewer steps than it counts. -/
def Extent.reached (extent : Extent) (stride : Int) : Set Int :=
  {i | ∃ k, 0 ≤ k ∧ k < extent.count ∧ i = extent.start + k * stride}

/-- The extent between two bounds at a stride. -/
def Extent.between (start stop stride : Int) : Extent := ⟨start, stop, (stop - start).tdiv stride + 1⟩

/-- The first bound is among the indices from it to another. -/
theorem start_mem_stepped (forward : start ≤ stop) (stride : Int) : start ∈ stepped start stop stride :=
  ⟨Int.le_refl start, forward, by simp⟩

/-- Between two bounds in order, the extent counts every stride and the start. -/
theorem count_between (forward : start ≤ stop) (stride : Int) :
    (Extent.between start stop stride).count = (stop - start) / stride + 1 :=
  congrArg (· + 1) (Int.tdiv_eq_ediv_of_nonneg (Int.sub_nonneg_of_le forward))

/-- Counting steps and staying between the bounds is the same. -/
theorem reached_between (positive : 0 < stride) (forward : start ≤ stop) :
    (Extent.between start stop stride).reached stride = stepped start stop stride := by
  ext i
  constructor
  · rintro ⟨k, nonneg, counted, rfl⟩
    rw [count_between forward] at counted
    have within : k * stride ≤ stop - start :=
      (Int.le_ediv_iff_mul_le positive).mp (Int.lt_add_one_iff.mp counted)
    have ahead : 0 ≤ k * stride := Int.mul_nonneg nonneg positive.le
    change start ≤ start + k * stride ∧ start + k * stride ≤ stop ∧ stride ∣ start + k * stride - start
    refine ⟨by omega, by omega, ?_⟩
    rw [add_sub_cancel_left]
    exact Int.dvd_mul_left k stride
  · rintro ⟨ahead, within, k, steps⟩
    rw [Int.mul_comm] at steps
    refine ⟨k, ?_, ?_, ?_⟩
    · exact nonneg_of_mul_nonneg_left (by omega) positive
    · rw [count_between forward]
      exact Int.lt_add_one_iff.mpr ((Int.le_ediv_iff_mul_le positive).mpr (by omega))
    · change i = start + k * stride
      omega

/-- As many steps as are counted lead beyond the bounds. -/
theorem stop_lt_of_between (positive : 0 < stride) (forward : start ≤ stop) :
    stop < start + (Extent.between start stop stride).count * stride := by
  have above := Int.lt_ediv_add_one_mul_self (stop - start) positive
  rw [count_between forward]
  omega

/-- The number of indices between two bounds is the length of the range over the stride, rounded up. -/
theorem count_eq_ceil (positive : 0 < stride) (start stop : Int) :
    (stop - start) / stride + 1 = ⌈((stop - start + 1 : Int) : ℚ) / stride⌉ := by
  have step : (0 : ℚ) < stride := by exact_mod_cast positive
  have below : (stop - start) / stride * stride < stop - start + 1 :=
    Int.lt_add_one_iff.mpr (Int.ediv_mul_le _ positive.ne')
  have above : stop - start + 1 ≤ ((stop - start) / stride + 1) * stride :=
    Int.lt_ediv_add_one_mul_self _ positive
  symm
  rw [Int.ceil_eq_iff, lt_div_iff₀ step, div_le_iff₀ step]
  constructor
  · push_cast
    rw [add_sub_cancel_right]
    exact_mod_cast below
  · exact_mod_cast above

/-- What it means that an extent describes a set of indices of a dimension of `length` indices. -/
structure Extent.Describes (extent : Extent) (stride length : Int) (indices : Set Int) : Prop where
  /-- The steps that are counted lead to these indices. -/
  whole : indices = extent.reached stride
  upTo : ∀ k, 0 ≤ k → k < extent.count → extent.start + k * stride ≤ extent.stop
  inside : extent.stop < length
  /-- One more step leads beyond the last bound. -/
  beyond : extent.stop < extent.start + extent.count * stride

/-- The extent between two bounds describes the indices from one to the other. -/
theorem describes_between (positive : 0 < stride) (forward : start ≤ stop) (inside : stop < length) :
    (Extent.between start stop stride).Describes stride length (stepped start stop stride) := by
  have whole := reached_between positive forward
  refine ⟨whole.symm, ?_, inside, stop_lt_of_between positive forward⟩
  intro k nonneg counted
  have reached : start + k * stride ∈ stepped start stop stride := by
    rw [← whole]
    exact ⟨k, nonneg, counted, rfl⟩
  exact reached.2.1

end Between

/-- When a slice resolves, and to what. -/
theorem resolve_eq_some_iff : slice.resolve length = some extent ↔
    (0 < length ∧ slice.firstIn length < length ∧ slice.lastIn length < length ∧
      slice.firstIn length ≤ slice.lastIn length) ∧
    extent = .between (slice.firstIn length) (slice.lastIn length) slice.stride := by
  unfold resolve
  dsimp only
  split
  · next outside =>
    simp only [Bool.or_eq_true, decide_eq_true_eq] at outside
    constructor
    · intro resolved
      cases resolved
    · omega
  · next inside =>
    simp only [Bool.or_eq_true, decide_eq_true_eq] at inside
    rw [Option.some.injEq]
    constructor
    · rintro rfl
      exact ⟨by omega, rfl⟩
    · rintro ⟨-, rfl⟩
      rfl

/-! ## Selections -/

/-- What a slice can be written to select: every index, the last one, a single one, those from a bound to
the end at a stride, or those from a bound to another at a stride. -/
inductive Selection where
  | whole
  | last
  | single (n : Nat)
  | onward (a c : Nat)
  | closed (a b c : Nat)

namespace Selection

/-- The selected indices of a dimension of `length` indices. -/
def indices : Selection → Int → Set Int
  | .whole, length => Set.Ico 0 length
  | .last, length => {length - 1}
  | .single n, _ => {(n : Int)}
  | .onward a c, length => {i | a ≤ i ∧ i < length ∧ (c : Int) ∣ i - a}
  | .closed a b c, _ => {i | a ≤ i ∧ i ≤ b ∧ (c : Int) ∣ i - a}

/-- The bounds that a selection names. -/
def bounds : Selection → List Nat
  | .single n => [n]
  | .onward a _ => [a]
  | .closed a b _ => [a, b]
  | _ => []

/-- Whether the bounds of a selection are in order. -/
def Ordered : Selection → Prop
  | .closed a b _ => a ≤ b
  | _ => True

/-- Whether a word of 64 bits holds the numbers of a selection and what is computed from them. -/
def Fits : Selection → Prop
  | .single n => n + 1 < 2 ^ 63
  | .onward a c => a < 2 ^ 63 ∧ c < 2 ^ 63
  | .closed a b c => a < 2 ^ 63 ∧ b < 2 ^ 63 ∧ c < 2 ^ 63 ∧ (b - a + 1 + c : Int) < 2 ^ 63
  | _ => True

/-- Whether a selection takes some indices of a dimension, no others, and names only bounds in it. -/
structure Within (selection : Selection) (length : Int) : Prop where
  nonempty : (selection.indices length).Nonempty
  inside : selection.indices length ⊆ Set.Ico 0 length
  bounded : ∀ bound ∈ selection.bounds, (bound : Int) ∈ Set.Ico 0 length

/-- Where a selection starts in a dimension, if it takes any index of it. -/
def firstIn : Selection → Int → Int
  | .whole, _ => 0
  | .last, length => length - 1
  | .single n, _ => n
  | .onward a _, _ => a
  | .closed a _ _, _ => a

/-- The bound that a selection does not pass in a dimension. -/
def lastIn : Selection → Int → Int
  | .single n, _ => n
  | .closed _ b _, _ => b
  | _, length => length - 1

/-- The stride of a selection. -/
def step : Selection → Int
  | .onward _ c => c
  | .closed _ _ c => c
  | _ => 1

/-- The slice for a selection. -/
def toSlice : Selection → Slice
  | .whole => Slice.whole
  | .last => Slice.last
  | .single n => index n
  | .onward a c => ⟨a, -1, c, -1, false⟩
  | .closed a b c => ⟨a, b, c, (b - a : Int) / c + 1, false⟩

variable {selection : Selection}

/-- The selected indices are the ones between the bounds at the stride. -/
theorem indices_eq_stepped (selection : Selection) (length : Int) : selection.indices length =
    stepped (selection.firstIn length) (selection.lastIn length) selection.step := by
  ext i
  cases selection with
  | whole =>
    constructor
    · rintro ⟨nonneg, below⟩
      exact ⟨nonneg, Int.le_sub_one_of_lt below, Int.one_dvd _⟩
    · rintro ⟨nonneg, within, -⟩
      exact ⟨nonneg, Int.lt_of_le_sub_one within⟩
  | last =>
    constructor
    · rintro rfl
      exact ⟨Int.le_refl _, Int.le_refl _, Int.one_dvd _⟩
    · rintro ⟨ahead, within, -⟩
      exact Int.le_antisymm within ahead
  | single n =>
    constructor
    · rintro rfl
      exact ⟨Int.le_refl _, Int.le_refl _, Int.one_dvd _⟩
    · rintro ⟨ahead, within, -⟩
      exact Int.le_antisymm within ahead
  | onward a c =>
    constructor
    · rintro ⟨ahead, below, steps⟩
      exact ⟨ahead, Int.le_sub_one_of_lt below, steps⟩
    · rintro ⟨ahead, within, steps⟩
      exact ⟨ahead, Int.lt_of_le_sub_one within, steps⟩
  | closed a b c => exact Iff.rfl

/-- No selection starts in front of a dimension that has an index. -/
theorem firstIn_nonneg (some : 0 < length) (selection : Selection) : 0 ≤ selection.firstIn length := by
  cases selection with
  | whole => exact Int.le_refl 0
  | last => exact Int.sub_nonneg_of_le some
  | single n => exact Int.natCast_nonneg n
  | onward a c => exact Int.natCast_nonneg a
  | closed a b c => exact Int.natCast_nonneg a

/-- The named bounds lie in a dimension if the selection starts in it and does not pass its end. -/
theorem bounded_iff (starts : selection.firstIn length < length) :
    (∀ bound ∈ selection.bounds, (bound : Int) ∈ Set.Ico 0 length) ↔ selection.lastIn length < length := by
  cases selection with
  | whole => simp [bounds, lastIn]
  | last => simp [bounds, lastIn]
  | single n => simp [bounds, lastIn]
  | onward a c =>
    have start : (a : Int) < length := starts
    simp [bounds, lastIn, start]
  | closed a b c =>
    have start : (a : Int) < length := starts
    simp [bounds, lastIn, start]

/-- A selection lies in a dimension if its bounds are in order there, named or not. -/
theorem within_iff : selection.Within length ↔
    0 < length ∧ selection.firstIn length < length ∧ selection.lastIn length < length ∧
      selection.firstIn length ≤ selection.lastIn length := by
  constructor
  · rintro ⟨⟨i, selected⟩, inside, bounded⟩
    rw [indices_eq_stepped] at selected inside
    have forward : selection.firstIn length ≤ selection.lastIn length := selected.1.trans selected.2.1
    obtain ⟨nonneg, starts⟩ := inside (start_mem_stepped forward selection.step)
    exact ⟨nonneg.trans_lt starts, starts, (bounded_iff starts).mp bounded, forward⟩
  · rintro ⟨some, starts, stops, forward⟩
    have nonneg := firstIn_nonneg some selection
    refine ⟨⟨selection.firstIn length, ?_⟩, ?_, (bounded_iff starts).mpr stops⟩
    · rw [indices_eq_stepped]
      exact start_mem_stepped forward selection.step
    · rw [indices_eq_stepped]
      rintro i ⟨ahead, within, -⟩
      exact ⟨nonneg.trans ahead, within.trans_lt stops⟩

/-- The slice for a selection has its bounds, also those that are not named. -/
theorem bounds_toSlice (selection : Selection) (length : Int) :
    selection.toSlice.firstIn length = selection.firstIn length ∧
    selection.toSlice.lastIn length = selection.lastIn length ∧
    selection.toSlice.stride = selection.step := by
  have named {n : Nat} {t e : Int} : (if (n : Int) < 0 then t else e) = e :=
    if_neg (Int.not_lt.mpr (Int.natCast_nonneg n))
  cases selection with
  | whole => exact ⟨rfl, rfl, rfl⟩
  | last => exact ⟨rfl, rfl, rfl⟩
  | single n => exact ⟨named, (if_pos rfl).trans named, rfl⟩
  | onward a c => exact ⟨named, rfl, rfl⟩
  | closed a b c => exact ⟨named, (if_neg Bool.false_ne_true).trans named, rfl⟩

/-- The slice for a selection resolves to an extent exactly if the selection lies within the
dimension, and then to the extent between its first index and its last bound. -/
theorem resolve_toSlice_eq_some_iff : selection.toSlice.resolve length = some extent ↔
    selection.Within length ∧
    extent = .between (selection.firstIn length) (selection.lastIn length) selection.step := by
  obtain ⟨first, last, stride⟩ := bounds_toSlice selection length
  rw [resolve_eq_some_iff, within_iff, first, last, stride]

/-- What the slice for a selection resolves to. -/
theorem describes_of_resolve (positive : 0 < selection.step)
    (resolved : selection.toSlice.resolve length = some extent) :
    extent.Describes selection.step length (selection.indices length) := by
  obtain ⟨within, rfl⟩ := resolve_toSlice_eq_some_iff.mp resolved
  obtain ⟨-, -, inside, forward⟩ := within_iff.mp within
  rw [indices_eq_stepped]
  exact describes_between positive forward inside

/-- A closed selection has its count before it is resolved. -/
theorem count_of_resolve {a b c : Nat} (resolved : (closed a b c).toSlice.resolve length = some extent) :
    extent.count = (closed a b c).toSlice.count := by
  obtain ⟨within, rfl⟩ := resolve_toSlice_eq_some_iff.mp resolved
  obtain ⟨-, -, -, forward⟩ := within_iff.mp within
  exact count_between forward _

end Selection

end Slice

end SignalAccess

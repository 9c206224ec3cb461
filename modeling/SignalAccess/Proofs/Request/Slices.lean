import SignalAccess.Proofs.Request.Groups
import SignalAccess.Proofs.Request.Selections
import SignalAccess.Proofs.Text.Pieces
import SignalAccess.Proofs.Text.Search
import SignalAccess.Proofs.Text.Trim

/-!
# Slices, as they are written

A slice is written in up to three parts, each of which is a number or left open, with blanks around it. What
is read is the slice for the selection that was written, so that it resolves to the selected indices in a
dimension of any length. It is refused if its bounds are out of order or its stride does not go forward,
whatever the other parts are.
-/

namespace SignalAccess

namespace Slice

/-! ## Parts of slices -/

variable {selection : Selection} {slice : Slice} {element token start stop stride : Text}
  {what : String} {value : Int}

/-- A text that is a number, blanks around it aside. -/
def IsNumber (token : Text) (value : Int) : Prop := Text.integerValue? token.trim = some value

/-- A text that leaves a bound open, blanks around it aside. -/
def IsOpen (token : Text) : Prop := token.trim = [] ∨ token.trim = ['*']

instance : Decidable (IsNumber token value) :=
  inferInstanceAs (Decidable (Text.integerValue? token.trim = some value))

instance : Decidable (IsOpen token) :=
  inferInstanceAs (Decidable (token.trim = [] ∨ token.trim = ['*']))

/-- A text that names a bound, or leaves it open. -/
def IsBound (token : Text) : Option Nat → Prop
  | none => IsOpen token
  | some n => IsNumber token n

/-- Blanks that are trimmed off belong to the first part and to the last one. -/
theorem splitOn_trim_append (start rest : Text) :
    Text.splitOn ':' (Text.trim (start ++ ':' :: rest)) =
      Text.splitOn ':' (Text.trimStart start) ++ Text.splitOn ':' (Text.trimEnd rest) := by
  rw [Text.trim_append_cons start rest (by decide), Text.splitOn_append_cons]

/-- Blanks that are trimmed off at the end belong to the last part. -/
theorem splitOn_trimEnd_append (stop rest : Text) :
    Text.splitOn ':' (Text.trimEnd (stop ++ ':' :: rest)) =
      Text.splitOn ':' stop ++ Text.splitOn ':' (Text.trimEnd rest) := by
  rw [Text.trimEnd_append_cons stop rest (by decide), Text.splitOn_append_cons]

/-- Only blanks are trimmed off, so that a part without the separator is one part. -/
theorem splitOn_of_trim (free : ':' ∉ token.trim) : Text.splitOn ':' token = [token] := by
  apply Text.splitOn_of_not_mem
  rw [← Text.mem_trim_iff (by decide)]
  exact free

/-- What a word of 64 bits holds stays below this. -/
theorem wordBound : ((1 <<< (64 - 1) : Nat) : Int) = 2 ^ 63 := by
  rw [Nat.one_shiftLeft]
  norm_num

namespace IsNumber

/-- A number stays one without the blanks in front of it. -/
theorem trimStart (number : IsNumber token value) : IsNumber (Text.trimStart token) value := by
  rw [IsNumber, Text.trim_trimStart]
  exact number

/-- A number stays one without the blanks behind it. -/
theorem trimEnd (number : IsNumber token value) : IsNumber (Text.trimEnd token) value := by
  rw [IsNumber, Text.trim_trimEnd]
  exact number

/-- A number stays one without the blanks around it. -/
theorem trim (number : IsNumber token value) : IsNumber token.trim value := by
  rw [IsNumber, Text.trim_trim]
  exact number

/-- A number is no text that has no integer value. -/
theorem trim_ne (number : IsNumber token value) {other : Text} (none : Text.integerValue? other = none) :
    token.trim ≠ other := by
  rintro same
  rw [IsNumber, same, none] at number
  cases number

/-- A number is neither open nor the last index. -/
theorem shown (number : IsNumber token value) :
    token.trim ≠ [] ∧ token.trim ≠ ['*'] ∧ token.trim ≠ ['#'] :=
  ⟨number.trim_ne rfl, number.trim_ne rfl, number.trim_ne rfl⟩

/-- No colon stands in a number. -/
theorem splitOn (number : IsNumber token value) : Text.splitOn ':' token = [token] := by
  apply splitOn_of_trim
  intro among
  exact number.trim_ne (Text.integerValue?_eq_none_of_mem among (by decide) (by decide)) rfl

/-- The word that is read of a number is its value, and 64 bits hold it. -/
theorem of_wordValue? {word : Int} (number : IsNumber token value)
    (read : Text.wordValue? 64 token.trim = some word) : word = value ∧ word < 2 ^ 63 := by
  obtain ⟨given, -, small⟩ := Text.wordValue?_eq_some_iff.mp read
  rw [wordBound] at small
  rw [IsNumber, given] at number
  exact ⟨Option.some.inj number, small⟩

/-- A natural number that 64 bits hold beside its sign is read as a word. -/
theorem wordValue? (number : IsNumber token value) (nonneg : 0 ≤ value) (small : value < 2 ^ 63) :
    Text.wordValue? 64 token.trim = some value := by
  rw [Text.wordValue?_eq_some_iff, wordBound]
  exact ⟨number, by omega, small⟩

end IsNumber

namespace IsOpen

/-- An open bound stays one without the blanks behind it. -/
theorem trimEnd (isOpen : IsOpen token) : IsOpen (Text.trimEnd token) := by
  rw [IsOpen, Text.trim_trimEnd]
  exact isOpen

/-- No colon stands in an open bound. -/
theorem splitOn (isOpen : IsOpen token) : Text.splitOn ':' token = [token] := by
  apply splitOn_of_trim
  rcases isOpen with empty | star
  · rw [empty]
    exact List.not_mem_nil
  · rw [star]
    decide

end IsOpen

/-- A natural number is a bound. -/
theorem IsNumber.isBound {n : Nat} (number : IsNumber token n) : IsBound token (some n) := number

/-- A text that leaves a bound open is one. -/
theorem IsOpen.isBound (isOpen : IsOpen token) : IsBound token none := isOpen

namespace IsBound

variable {bound : Option Nat}

/-- A bound stays one without the blanks behind it. -/
theorem trimEnd (given : IsBound token bound) : IsBound (Text.trimEnd token) bound := by
  cases bound with
  | none => exact IsOpen.trimEnd given
  | some n => exact IsNumber.trimEnd given

/-- No colon stands in a bound. -/
theorem splitOn (given : IsBound token bound) : Text.splitOn ':' token = [token] := by
  cases bound with
  | none => exact IsOpen.splitOn given
  | some n => exact IsNumber.splitOn given

end IsBound

/-- A bound that is a number is read if it is not negative and a word holds it. -/
theorem parseBound_eq_ok_iff {bound : Option Int} (number : IsNumber token value) :
    parseBound what token = .ok bound ↔ bound = some value ∧ 0 ≤ value ∧ value < 2 ^ 63 := by
  obtain ⟨some, star, hash⟩ := number.shown
  constructor
  · intro parsed
    unfold parseBound at parsed
    dsimp only at parsed
    split at parsed
    · next isOpen => simp [some, star, hash] at isOpen
    · split at parsed
      · cases parsed
      · next read word =>
        obtain ⟨rfl, small⟩ := number.of_wordValue? word
        split at parsed
        · cases parsed
        · next nonneg =>
          cases parsed
          exact ⟨rfl, Int.not_lt.mp nonneg, small⟩
  · rintro ⟨rfl, nonneg, small⟩
    simp [parseBound, some, star, hash, number.wordValue? nonneg small, nonneg]

/-- A bound is read that a word holds, or that is left open. -/
theorem IsBound.parse_eq {bound : Option Nat} (given : IsBound token bound)
    (small : ∀ n ∈ bound, n < 2 ^ 63) : parseBound what token = .ok (bound.map (↑)) := by
  cases bound with
  | none =>
    rcases given with empty | star
    · simp [parseBound, empty]
    · simp [parseBound, star]
  | some n =>
    exact (parseBound_eq_ok_iff given).mpr ⟨rfl, Int.natCast_nonneg n, by exact_mod_cast small n rfl⟩

/-- A stride that is a number is read if it is positive and a word holds it. -/
theorem parseStride_eq_ok_iff {step : Int} (number : IsNumber token value) :
    parseStride token = .ok step ↔ step = value ∧ 0 < value ∧ value < 2 ^ 63 := by
  obtain ⟨some, star, -⟩ := number.shown
  constructor
  · intro parsed
    unfold parseStride at parsed
    dsimp only at parsed
    split at parsed
    · next isOpen => simp [some, star] at isOpen
    · split at parsed
      · cases parsed
      · next read word =>
        obtain ⟨rfl, small⟩ := number.of_wordValue? word
        split at parsed
        · cases parsed
        · next positive =>
          cases parsed
          exact ⟨rfl, Int.not_le.mp positive, small⟩
  · rintro ⟨rfl, positive, small⟩
    simp [parseStride, some, star, number.wordValue? positive.le small, positive]

/-! ## Slices of several parts -/

variable {first second : Text} {more : List Text}

/-- Which slice is read from two parts or more. -/
theorem parse_eq_ok_iff (split : Text.splitOn ':' element.trim = first :: second :: more) :
    parse element = .ok slice ↔
      ∃ stride : Option Text, more = stride.toList ∧ parseRange first second stride = .ok slice := by
  have shown {t : Text} (single : Text.splitOn ':' t = [t]) : element.trim ≠ t := by
    rintro same
    rw [same, single] at split
    cases split
  have some : element.trim ≠ [] := shown rfl
  have star : element.trim ≠ ['*'] := shown rfl
  have hash : element.trim ≠ ['#'] := shown rfl
  constructor
  · intro parsed
    unfold parse at parsed
    dsimp only at parsed
    rw [if_neg (by simp [some, star]), if_neg hash, split] at parsed
    rcases more with - | ⟨third, - | ⟨fourth, others⟩⟩
    · exact ⟨none, rfl, parsed⟩
    · exact ⟨third, rfl, parsed⟩
    · cases parsed
  · rintro ⟨stride, rfl, parsed⟩
    unfold parse
    dsimp only
    rw [if_neg (by simp [some, star]), if_neg hash, split]
    cases stride with
    | none => exact parsed
    | some third => exact parsed

/-- A slice of two parts is made from its bounds. -/
theorem parse_of_two {a : Nat} {bound : Option Nat} (first : IsNumber start a) (last : IsBound stop bound)
    (startSmall : a < 2 ^ 63) (stopSmall : ∀ n ∈ bound, n < 2 ^ 63)
    (made : between a (bound.map (↑)) 1 = .ok slice) : parse (start ++ ':' :: stop) = .ok slice := by
  have split := splitOn_trim_append start stop
  rw [first.trimStart.splitOn, last.trimEnd.splitOn] at split
  refine (parse_eq_ok_iff split).mpr ⟨none, rfl, ?_⟩
  rw [parseRange, first.trimStart.isBound.parse_eq (by simpa using startSmall),
    last.trimEnd.parse_eq stopSmall]
  exact made

/-- A slice of three parts is made from its bounds and its stride. -/
theorem parse_of_three {a c : Nat} {bound : Option Nat} (first : IsNumber start a)
    (last : IsBound stop bound) (step : IsNumber stride c) (startSmall : a < 2 ^ 63)
    (stopSmall : ∀ n ∈ bound, n < 2 ^ 63) (forward : 0 < c) (stepSmall : c < 2 ^ 63)
    (made : between a (bound.map (↑)) c = .ok slice) :
    parse (start ++ ':' :: (stop ++ ':' :: stride)) = .ok slice := by
  have split := splitOn_trim_append start (stop ++ ':' :: stride)
  rw [splitOn_trimEnd_append, first.trimStart.splitOn, last.splitOn, step.trimEnd.splitOn] at split
  have strides : parseStride (Text.trimEnd stride) = .ok (c : Int) :=
    (parseStride_eq_ok_iff step.trimEnd).mpr
      ⟨rfl, by exact_mod_cast forward, by exact_mod_cast stepSmall⟩
  refine (parse_eq_ok_iff split).mpr ⟨some (Text.trimEnd stride), rfl, ?_⟩
  rw [parseRange, first.trimStart.isBound.parse_eq (by simpa using startSmall), last.parse_eq stopSmall,
    Option.elim_some, strides]
  exact made

/-- The count of a closed slice is the number of strides in its range, and one. -/
theorem between_of_le {a b c : Int} (forward : a ≤ b) (positive : 0 < c)
    (fits : b - a + 1 + c < 2 ^ 63) :
    between a (some b) c = .ok ⟨a, b, c, (b - a) / c + 1, false⟩ := by
  have count : (b - a + c).tdiv c = (b - a) / c + 1 := by
    rw [Int.tdiv_eq_ediv_of_nonneg (by omega), Int.add_ediv_of_dvd_right (Int.dvd_refl c),
      Int.ediv_self positive.ne']
  rw [between_eq_of_fits forward positive fits.le, count]

/-- No slice has its stop in front of its start, whatever its stride. -/
theorem parseRange_ne_ok {a b : Int} (first : IsNumber start a)
    (last : IsNumber stop b) (disorder : b < a) (stride : Option Text) (slice : Slice) :
    parseRange start stop stride ≠ .ok slice := by
  intro parsed
  obtain ⟨_, starts, parsed⟩ := result_bind_eq_ok parsed
  obtain ⟨_, stops, parsed⟩ := result_bind_eq_ok parsed
  obtain ⟨_, -, made⟩ := result_bind_eq_ok parsed
  obtain ⟨rfl, -, -⟩ := (parseBound_eq_ok_iff first).mp starts
  obtain ⟨rfl, -, -⟩ := (parseBound_eq_ok_iff last).mp stops
  rw [Option.getD_some, between, if_pos disorder] at made
  cases made

/-! ## Slices that are refused -/

/-- A text that is refused. -/
def IsRefused (element : Text) : Prop := ∃ failure, parse element = .error failure

/-- A text is refused exactly if it is read as no slice. -/
theorem isRefused_iff : IsRefused element ↔ ∀ slice, parse element ≠ .ok slice := by
  unfold IsRefused
  cases parse element with
  | error failure => simp
  | ok slice => simp

/-- A text is refused if its second part is a number in front of the first one, whatever follows. -/
theorem isRefused_of_parts {a b : Int} (split : Text.splitOn ':' element.trim = first :: second :: more)
    (starts : IsNumber first a) (stops : IsNumber second b) (disorder : b < a) : IsRefused element := by
  rw [isRefused_iff]
  intro slice parsed
  obtain ⟨stride, -, made⟩ := (parse_eq_ok_iff split).mp parsed
  exact parseRange_ne_ok starts stops disorder stride slice made

/-- A slice is refused if its stop is in front of its start. -/
theorem isRefused_of_disorder {a b : Int} (starts : IsNumber start a) (stops : IsNumber stop b)
    (disorder : b < a) : IsRefused (start ++ ':' :: stop) ∧
      ∀ stride, IsRefused (start ++ ':' :: (stop ++ ':' :: stride)) := by
  constructor
  · have split := splitOn_trim_append start stop
    rw [starts.trimStart.splitOn, stops.trimEnd.splitOn] at split
    exact isRefused_of_parts split starts.trimStart stops.trimEnd disorder
  · intro stride
    have split := splitOn_trim_append start (stop ++ ':' :: stride)
    rw [splitOn_trimEnd_append, starts.trimStart.splitOn, stops.splitOn] at split
    exact isRefused_of_parts split starts.trimStart stops disorder

/-- At least two parts stand in front of the last of three. -/
theorem exists_splitOn_trim_eq (start stop stride : Text) : ∃ first second between,
    Text.splitOn ':' (Text.trim (start ++ ':' :: (stop ++ ':' :: stride))) =
      first :: second :: (between ++ Text.splitOn ':' (Text.trimEnd stride)) := by
  obtain ⟨p, ps, left⟩ := List.exists_cons_of_ne_nil
    (Text.splitWhere_ne_nil (· == ':') (Text.trimStart start))
  obtain ⟨q, qs, right⟩ := List.exists_cons_of_ne_nil (Text.splitWhere_ne_nil (· == ':') stop)
  have leftParts : Text.splitOn ':' (Text.trimStart start) = p :: ps := left
  have rightParts : Text.splitOn ':' stop = q :: qs := right
  rw [splitOn_trim_append, splitOn_trimEnd_append, leftParts, rightParts]
  cases ps with
  | nil => exact ⟨p, q, qs, rfl⟩
  | cons p' ps => exact ⟨p, p', ps ++ q :: qs, by simp⟩

/-- A slice is refused if it does not go forward, whatever its bounds. -/
theorem isRefused_of_stride {c : Int} (step : IsNumber stride c) (backward : c ≤ 0)
    (start stop : Text) : IsRefused (start ++ ':' :: (stop ++ ':' :: stride)) := by
  obtain ⟨first, second, between, split⟩ := exists_splitOn_trim_eq start stop stride
  rw [step.trimEnd.splitOn] at split
  rw [isRefused_iff]
  intro slice parsed
  obtain ⟨third, last, made⟩ := (parse_eq_ok_iff split).mp parsed
  have ends := congrArg List.getLast? last
  rw [List.getLast?_concat] at ends
  cases third with
  | none => cases ends
  | some third =>
    obtain rfl : Text.trimEnd stride = third := Option.some.inj ends
    obtain ⟨_, -, made⟩ := result_bind_eq_ok made
    obtain ⟨_, -, made⟩ := result_bind_eq_ok made
    obtain ⟨read, given, -⟩ := result_bind_eq_ok made
    obtain ⟨-, positive, -⟩ := (parseStride_eq_ok_iff step.trimEnd).mp given
    omega

/-! ## Slices that are read -/

/-- The texts that write a selection: nothing or `*`, `#`, `n`, `a:` or `a:*`, `a:b`, `a::c` or `a:*:c`, and
`a:b:c`. -/
inductive Writes : Selection → Text → Prop
  | whole {element : Text} (isOpen : IsOpen element) : Writes .whole element
  | last {element : Text} (hash : element.trim = ['#']) : Writes .last element
  | single {element : Text} {n : Nat} (number : IsNumber element n) : Writes (.single n) element
  | onward {start stop : Text} {a : Nat} (first : IsNumber start a) (isOpen : IsOpen stop) :
      Writes (.onward a 1) (start ++ ':' :: stop)
  | closed {start stop : Text} {a b : Nat} (first : IsNumber start a) (last : IsNumber stop b) :
      Writes (.closed a b 1) (start ++ ':' :: stop)
  | onwardBy {start stop stride : Text} {a c : Nat} (first : IsNumber start a) (isOpen : IsOpen stop)
      (step : IsNumber stride c) (forward : 0 < c) :
      Writes (.onward a c) (start ++ ':' :: (stop ++ ':' :: stride))
  | closedBy {start stop stride : Text} {a b c : Nat} (first : IsNumber start a) (last : IsNumber stop b)
      (step : IsNumber stride c) (forward : 0 < c) :
      Writes (.closed a b c) (start ++ ':' :: (stop ++ ':' :: stride))

namespace Writes

/-- Every selection that can be written goes forward. -/
theorem step_pos (writes : Writes selection element) : 0 < selection.step := by
  cases writes with
  | whole isOpen => exact Int.one_pos
  | last hash => exact Int.one_pos
  | single number => exact Int.one_pos
  | onward first isOpen => exact Int.one_pos
  | closed first last => exact Int.one_pos
  | onwardBy first isOpen step forward => exact Int.natCast_pos.mpr forward
  | closedBy first last step forward => exact Int.natCast_pos.mpr forward

/-- A text is refused if the bounds it writes are out of order. -/
theorem isRefused (writes : Writes selection element) (disorder : ¬selection.Ordered) :
    IsRefused element := by
  cases writes with
  | closed first last =>
    exact (isRefused_of_disorder first last (Int.ofNat_lt.mpr (Nat.not_le.mp disorder))).1
  | closedBy first last =>
    exact (isRefused_of_disorder first last (Int.ofNat_lt.mpr (Nat.not_le.mp disorder))).2 _
  | _ => exact absurd trivial disorder

/-- What is read is the slice for the selection that was written. -/
theorem parse_eq (writes : Writes selection element) (fits : selection.Fits)
    (ordered : selection.Ordered) : parse element = .ok selection.toSlice := by
  have open' {P : Nat → Prop} : ∀ n ∈ (none : Option Nat), P n := by simp
  have named {n : Nat} (small : n < 2 ^ 63) : ∀ m ∈ some n, m < 2 ^ 63 := by simpa using small
  cases writes with
  | whole isOpen =>
    rcases isOpen with empty | star
    · simp [parse, empty, Selection.toSlice]
    · simp [parse, star, Selection.toSlice]
  | last hash => simp [parse, hash, Selection.toSlice]
  | single number =>
    obtain ⟨some, star, hash⟩ := number.shown
    unfold parse
    dsimp only
    rw [if_neg (by simp [some, star]), if_neg hash, number.trim.splitOn]
    dsimp only
    rw [number.trim.isBound.parse_eq (named (Nat.lt_of_succ_lt fits))]
    rfl
  | onward first isOpen => exact parse_of_two first isOpen.isBound fits.1 open' rfl
  | closed first last =>
    exact parse_of_two first last.isBound fits.1 (named fits.2.1)
      (between_of_le (Int.ofNat_le.mpr ordered) Int.one_pos fits.2.2.2)
  | onwardBy first isOpen step forward =>
    exact parse_of_three first isOpen.isBound step fits.1 open' forward fits.2 rfl
  | closedBy first last step forward =>
    exact parse_of_three first last.isBound step fits.1 (named fits.2.1) forward fits.2.2.1
      (between_of_le (Int.ofNat_le.mpr ordered) (Int.natCast_pos.mpr forward) fits.2.2.2)

end Writes

/-- A selection that is written is read if its bounds are in order. The slice that is read resolves in a
dimension exactly if the selection lies in it, and what it resolves to describes the selected indices; a
closed selection has their count already, which is the length of the range over the stride, rounded up.
Bounds out of order and strides that do not go forward are always refused, so that resolving never divides
by zero. -/
theorem resolve_of_writes (writes : Writes selection element) (fits : selection.Fits) :
    ((∃ slice, parse element = .ok slice) ↔ selection.Ordered) ∧
    (∀ slice, parse element = .ok slice → ∀ length,
      ((∃ extent, slice.resolve length = some extent) ↔ selection.Within length) ∧
      ∀ extent, slice.resolve length = some extent →
        extent.Describes slice.stride length (selection.indices length) ∧
        ∀ a b c, selection = .closed a b c → extent.count = slice.count ∧
          extent.count = ⌈((b - a + 1 : Int) : ℚ) / c⌉) ∧
    (∀ start stop a b, IsNumber start a → IsNumber stop b → b < a →
      IsRefused (start ++ ':' :: stop) ∧
      ∀ stride, IsRefused (start ++ ':' :: (stop ++ ':' :: stride))) ∧
    (∀ start stop stride c, IsNumber stride c → c ≤ 0 →
      IsRefused (start ++ ':' :: (stop ++ ':' :: stride))) ∧
    ∀ element slice, parse element = .ok slice → 0 < slice.stride := by
  have accepted : (∃ slice, parse element = .ok slice) ↔ selection.Ordered := by
    constructor
    · rintro ⟨slice, parsed⟩
      by_contra disorder
      exact isRefused_iff.mp (writes.isRefused disorder) slice parsed
    · intro ordered
      exact ⟨selection.toSlice, writes.parse_eq fits ordered⟩
  refine ⟨accepted, ?_, ?_, ?_, ?_⟩
  · intro slice parsed length
    have read := writes.parse_eq fits (accepted.mp ⟨slice, parsed⟩)
    rw [parsed] at read
    cases read
    refine ⟨?_, ?_⟩
    · constructor
      · rintro ⟨extent, resolved⟩
        exact (Selection.resolve_toSlice_eq_some_iff.mp resolved).1
      · intro within
        exact ⟨_, Selection.resolve_toSlice_eq_some_iff.mpr ⟨within, rfl⟩⟩
    · intro extent resolved
      constructor
      · rw [(selection.bounds_toSlice length).2.2]
        exact Selection.describes_of_resolve writes.step_pos resolved
      · rintro a b c rfl
        have count := Selection.count_of_resolve resolved
        refine ⟨count, ?_⟩
        rw [count]
        exact count_eq_ceil writes.step_pos a b
  · intro start stop a b first last disorder
    exact isRefused_of_disorder first last disorder
  · intro start stop stride c step backward
    exact isRefused_of_stride step backward start stop
  · intro element slice parsed
    exact one_le_stride_of_parse parsed

/-- From 1 to 10 at a stride of 4 there are three indices, all of which are in a dimension of length 10; the
bound 10 is not. -/
theorem resolve_of_writes_padded :
    Writes (.closed 1 10 4) " 1 : 10:4 ".toList ∧ (Selection.closed 1 10 4).Fits ∧
    parse " 1 : 10:4 ".toList = .ok ⟨1, 10, 4, 3, false⟩ ∧
    (Selection.closed 1 10 4).Within 11 ∧ ¬(Selection.closed 1 10 4).Within 10 ∧
    (Extent.mk 1 10 3).Describes 4 11 ((Selection.closed 1 10 4).indices 11) := by
  have parts : " 1 : 10:4 ".toList = " 1 ".toList ++ ':' :: (" 10".toList ++ ':' :: "4 ".toList) := by
    decide +kernel
  have writes : Writes (.closed 1 10 4) " 1 : 10:4 ".toList := by
    rw [parts]
    exact .closedBy (by decide +kernel) (by decide +kernel) (by decide +kernel) (by decide)
  have fits : (Selection.closed 1 10 4).Fits := ⟨by decide, by decide, by decide, by decide⟩
  have parsed : parse " 1 : 10:4 ".toList = .ok ⟨1, 10, 4, 3, false⟩ := by decide +kernel
  obtain ⟨-, resolves, -⟩ := resolve_of_writes writes fits
  obtain ⟨inEleven, describes⟩ := resolves _ parsed 11
  obtain ⟨inTen, -⟩ := resolves _ parsed 10
  refine ⟨writes, fits, parsed, inEleven.mp ⟨⟨1, 10, 3⟩, by decide⟩, ?_, (describes _ (by decide)).1⟩
  rw [← inTen]
  rintro ⟨extent, resolved⟩
  cases resolved

end Slice

end SignalAccess

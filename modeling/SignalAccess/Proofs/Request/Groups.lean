import SignalAccess.Proofs.Failure.Recording
import SignalAccess.Proofs.Text.Search
import SignalAccess.Request.Subset

/-!
# Groups of slices

A row of groups is written with brackets of one kind around each of them. What is taken off the end of a
signal is a row of groups that hold characters of slices, and it is taken whole: there is one cut of a
text in front of such a row behind which no group is left. A row is read group by group, so a signal
that has a subset selects something in at least one dimension. Every slice that is well formed has a
stride of at least one, and no subset has more dimensions than the greatest rank.
-/

namespace SignalAccess

namespace Slice

/-- A stride that is read goes forward. -/
theorem one_le_of_parseStride {token : Text} {stride : Int} (parsed : parseStride token = .ok stride) :
    1 ≤ stride := by
  unfold parseStride at parsed
  dsimp only at parsed
  split at parsed
  · cases parsed
    exact Int.le_refl 1
  · split at parsed
    · cases parsed
    · split at parsed
      · cases parsed
      · next positive =>
        cases parsed
        omega

/-- A slice that is made between two bounds has the stride that it is made with. -/
theorem stride_of_between {start stride : Int} {stop : Option Int} {slice : Slice}
    (made : between start stop stride = .ok slice) : slice.stride = stride := by
  cases stop with
  | none =>
    cases made
    rfl
  | some stop =>
    rw [between] at made
    split at made
    · cases made
    · cases made
      rfl

/-- A slice that is written with colons goes forward. -/
theorem one_le_stride_of_parseRange {start stop : Text} {stride : Option Text} {slice : Slice}
    (parsed : parseRange start stop stride = .ok slice) : 1 ≤ slice.stride := by
  obtain ⟨first, -, parsed⟩ := result_bind_eq_ok parsed
  obtain ⟨last, -, parsed⟩ := result_bind_eq_ok parsed
  obtain ⟨step, given, made⟩ := result_bind_eq_ok parsed
  rw [stride_of_between made]
  cases stride with
  | none =>
    cases given
    exact Int.le_refl 1
  | some token => exact one_le_of_parseStride given

/-- A slice that is well formed goes forward. -/
theorem one_le_stride_of_parse {element : Text} {slice : Slice}
    (parsed : parse element = .ok slice) : 1 ≤ slice.stride := by
  unfold parse at parsed
  dsimp only at parsed
  split at parsed
  · cases parsed
    exact Int.le_refl 1
  · split at parsed
    · cases parsed
      exact Int.le_refl 1
    · split at parsed
      · obtain ⟨start, -, made⟩ := result_bind_eq_ok parsed
        cases made
        exact Int.le_refl 1
      · exact one_le_stride_of_parseRange parsed
      · exact one_le_stride_of_parseRange parsed
      · cases parsed

end Slice

/-- The brackets that stand around slices. -/
inductive Bracket where
  | square
  | brace
  deriving DecidableEq, Repr

namespace Bracket

/-- The bracket that opens a group. -/
def opening : Bracket → Char
  | square => '['
  | brace => '{'

/-- The bracket that closes a group. -/
def closing : Bracket → Char
  | square => ']'
  | brace => '}'

/-- A text between brackets of one kind. -/
def around (bracket : Bracket) (contents : Text) : Text :=
  bracket.opening :: (contents ++ [bracket.closing])

variable (bracket : Bracket)

/-- The bracket that opens a group is an opening one. -/
theorem isOpening_opening : Subset.isOpening bracket.opening = true := by
  cases bracket <;> rfl

/-- The bracket that closes a group is no opening one. -/
theorem isOpening_closing : Subset.isOpening bracket.closing = false := by
  cases bracket <;> rfl

/-- The bracket that closes a group is a closing one. -/
theorem isClosing_closing : Subset.isClosing bracket.closing = true := by
  cases bracket <;> rfl

/-- The bracket that opens a group is no blank. -/
theorem isBlank_opening : Text.isBlank bracket.opening = false := by
  cases bracket <;> decide

/-- The bracket that closes a group is no blank. -/
theorem isBlank_closing : Text.isBlank bracket.closing = false := by
  cases bracket <;> decide

/-- The two brackets of a kind are different. -/
theorem opening_ne_closing : bracket.opening ≠ bracket.closing := by
  cases bracket <;> decide

end Bracket

namespace Subset

variable {c : Char} {t front group head contents : Text} {row : List (Bracket × Text)}

/-- A text without brackets. -/
def IsFlat (t : Text) : Prop := ∀ c ∈ t, isOpening c = false ∧ isClosing c = false

instance : DecidablePred IsFlat := fun t => List.decidableBAll _ t

/-- A text of characters of slices. -/
def IsSlices (t : Text) : Prop := t.all isSliceChar = true

instance : DecidablePred IsSlices := fun t => inferInstanceAs (Decidable (t.all isSliceChar = true))

/-- A row of groups, each with its brackets around its contents. -/
def written (row : List (Bracket × Text)) : Text :=
  row.flatMap fun (bracket, contents) => bracket.around contents

/-- The first group of a row is written in front of the others. -/
theorem written_cons (bracket : Bracket) (contents : Text) (row : List (Bracket × Text)) :
    written ((bracket, contents) :: row) = bracket.around contents ++ written row := rfl

/-- The last group of a row is written behind the others. -/
theorem written_concat (row : List (Bracket × Text)) (bracket : Bracket) (contents : Text) :
    written (row ++ [(bracket, contents)]) = written row ++ bracket.around contents := by
  simp [written]

/-- The characters of slices are no brackets. -/
theorem IsSlices.isFlat (slices : IsSlices t) : IsFlat t := by
  intro c among
  have plain : isSliceChar c = true := List.all_eq_true.mp slices c among
  rw [Bool.eq_false_iff, Bool.eq_false_iff]
  constructor
  · intro opens
    have bracket : c = '[' ∨ c = '{' := by simpa [isOpening] using opens
    rcases bracket with rfl | rfl <;> cases plain
  · intro closes
    have bracket : c = ']' ∨ c = '}' := by simpa [isClosing] using closes
    rcases bracket with rfl | rfl <;> cases plain

/-! ## The last group of a text -/

/-- A text that ends with a closing bracket wants the opening one of its kind. -/
theorem opening?_concat (front : Text) (bracket : Bracket) :
    opening? (front ++ [bracket.closing]) = some bracket.opening := by
  unfold opening?
  rw [List.getLast?_concat]
  cases bracket <;> rfl

/-- A bracket opens a group at the end of a text only if the text ends with the one that closes it. -/
theorem exists_of_opening? (found : opening? t = some c) :
    ∃ bracket front, t = front ++ [Bracket.closing bracket] ∧ c = bracket.opening := by
  unfold opening? at found
  split at found
  · next last =>
    cases found
    obtain ⟨front, whole⟩ := List.getLast?_eq_some_iff.mp last
    exact ⟨.square, front, whole, rfl⟩
  · next last =>
    cases found
    obtain ⟨front, whole⟩ := List.getLast?_eq_some_iff.mp last
    exact ⟨.brace, front, whole, rfl⟩
  · cases found

/-- What the last group of a text is: brackets of one kind around characters of slices. The bracket that
opens it is the last of its kind, since the contents hold none. -/
theorem lastGroup?_eq_some_iff : lastGroup? t = some (front, group) ↔
    t = front ++ group ∧ ∃ bracket contents, group = Bracket.around bracket contents ∧
      IsSlices contents := by
  constructor
  · intro found
    simp only [lastGroup?, Option.bind_eq_bind, Option.bind_eq_some_iff, Prod.exists] at found
    obtain ⟨c, opened, before, tail, broken, found⟩ := found
    obtain ⟨bracket, inner, ended, rfl⟩ := exists_of_opening? opened
    have whole : t = (before ++ [bracket.opening]) ++ tail := Text.append_of_breakOnLast broken
    split at found
    · next slices =>
      cases found
      refine ⟨by simpa using whole, bracket, tail.dropLast, ?_, slices⟩
      rcases List.eq_nil_or_concat' tail with rfl | ⟨contents, last, rfl⟩
      · -- The text would end with the bracket that opens the group.
        rw [List.append_nil, ended] at whole
        have same := (List.append_inj' whole rfl).2
        exact absurd (List.cons.inj same).1.symm bracket.opening_ne_closing
      · rw [ended, ← List.append_assoc] at whole
        have same := (List.append_inj' whole rfl).2
        rw [← same, List.dropLast_concat]
        rfl
    · cases found
  · rintro ⟨rfl, bracket, contents, rfl, slices⟩
    have free : bracket.opening ∉ contents ++ [bracket.closing] := by
      intro among
      rcases List.mem_append.mp among with inside | last
      · have flat := (slices.isFlat _ inside).1
        rw [bracket.isOpening_opening] at flat
        cases flat
      · exact bracket.opening_ne_closing (List.mem_singleton.mp last)
    have opened : opening? (front ++ bracket.around contents) = some bracket.opening := by
      have whole : front ++ bracket.around contents =
          (front ++ bracket.opening :: contents) ++ [bracket.closing] := by simp [Bracket.around]
      rw [whole, opening?_concat]
    have broken : Text.breakAtLast bracket.opening (front ++ bracket.around contents) =
        some (front, contents ++ [bracket.closing]) := Text.breakAtLast_append front free
    have inner : (contents ++ [bracket.closing]).dropLast.all isSliceChar = true := by
      rw [List.dropLast_concat]
      exact slices
    simp only [lastGroup?, opened, broken, Option.bind_eq_bind, Option.bind_some, inner, if_true]
    rfl

/-- A text that ends with a group of slices. -/
def EndsWithGroup (t : Text) : Prop :=
  ∃ front bracket contents, IsSlices contents ∧ t = front ++ Bracket.around bracket contents

/-- No last group is found exactly where the text does not end with a group of slices. -/
theorem lastGroup?_eq_none_iff : lastGroup? t = none ↔ ¬EndsWithGroup t := by
  constructor
  · rintro absent ⟨front, bracket, contents, slices, whole⟩
    have found := lastGroup?_eq_some_iff.mpr ⟨whole, bracket, contents, rfl, slices⟩
    rw [absent] at found
    cases found
  · intro apart
    cases found : lastGroup? t with
    | none => rfl
    | some parts =>
      obtain ⟨front, group⟩ := parts
      obtain ⟨whole, bracket, contents, rfl, slices⟩ := lastGroup?_eq_some_iff.mp found
      exact absurd ⟨front, bracket, contents, slices, whole⟩ apart

/-! ## The groups at the end of a text -/

/-- A text is cut in front of a row of groups; the induction goes from the last group to the first. -/
theorem splitGroups_parts (t : Text) :
    t = (splitGroups t).1 ++ (splitGroups t).2 ∧ ¬EndsWithGroup (splitGroups t).1 ∧
      ∃ row, (splitGroups t).2 = written row ∧ ∀ group ∈ row, IsSlices group.2 := by
  fun_induction splitGroups t with
  | case1 t absent =>
    exact ⟨(List.append_nil t).symm, lastGroup?_eq_none_iff.mp absent, [], rfl, by simp⟩
  | case2 t front group found head groups split inductionHypothesis =>
    rw [split] at inductionHypothesis
    obtain ⟨frontWhole, apart, row, rfl, all⟩ := inductionHypothesis
    obtain ⟨whole, bracket, contents, rfl, slices⟩ := lastGroup?_eq_some_iff.mp found
    refine ⟨?_, apart, row ++ [(bracket, contents)], (written_concat row bracket contents).symm, ?_⟩
    · rw [whole, ← List.append_assoc, ← frontWhole]
    · intro member among
      rcases List.mem_append.mp among with earlier | last
      · exact all member earlier
      · rw [List.mem_singleton.mp last]
        exact slices

/-- There is one such cut: every group of the row is taken. -/
theorem splitGroups_append (apart : ¬EndsWithGroup head) (all : ∀ group ∈ row, IsSlices group.2) :
    splitGroups (head ++ written row) = (head, written row) := by
  induction row using List.reverseRecOn with
  | nil =>
    rw [splitGroups, written, List.flatMap_nil, List.append_nil]
    split
    · rfl
    · next front group found =>
      rw [lastGroup?_eq_none_iff.mpr apart] at found
      cases found
  | append_singleton row last inductionHypothesis =>
    have earlier := inductionHypothesis fun group among => all group (List.mem_append_left _ among)
    have ending : lastGroup? (head ++ written row ++ last.1.around last.2) =
        some (head ++ written row, last.1.around last.2) :=
      lastGroup?_eq_some_iff.mpr ⟨rfl, last.1, last.2, rfl, all last (by simp)⟩
    rw [written_concat, ← List.append_assoc, splitGroups]
    split
    · next absent =>
      rw [ending] at absent
      cases absent
    · next front group found =>
      rw [ending] at found
      cases found
      rw [earlier]

/-! ## Rows of groups, read as an expression -/

/-- What stands in an open group is read into it until the group is closed. -/
theorem groupsFrom_contents (flat : IsFlat contents) (bracket : Bracket) (read rest : Text) :
    groupsFrom (some read) (contents ++ bracket.closing :: rest) =
      (read ++ contents) :: groupsFrom none rest := by
  induction contents generalizing read with
  | nil => simp [groupsFrom, bracket.isOpening_closing, bracket.isClosing_closing]
  | cons c contents inductionHypothesis =>
    obtain ⟨opens, closes⟩ := flat c List.mem_cons_self
    have next := inductionHypothesis (fun d among => flat d (List.mem_cons_of_mem c among))
      (read ++ [c])
    simpa [groupsFrom, opens, closes] using next

/-- A row of groups is read group by group. -/
theorem groupsFrom_written (all : ∀ group ∈ row, IsFlat group.2) :
    groupsFrom none (written row) = row.map Prod.snd := by
  induction row with
  | nil => rfl
  | cons group others inductionHypothesis =>
    obtain ⟨bracket, contents⟩ := group
    have rest := inductionHypothesis fun other among => all other (List.mem_cons_of_mem _ among)
    have first := groupsFrom_contents (all _ List.mem_cons_self) bracket [] (written others)
    rw [written_cons, Bracket.around, List.cons_append, groupsFrom, if_pos bracket.isOpening_opening,
      List.append_assoc, List.singleton_append, first, rest]
    rfl

/-- A row of groups starts and ends with a bracket, which is no blank. -/
theorem trim_written (row : List (Bracket × Text)) : Text.trim (written row) = written row := by
  rcases List.eq_nil_or_concat' row with rfl | ⟨others, ⟨bracket, contents⟩, whole⟩
  · rfl
  · obtain ⟨first, rest, split⟩ := List.exists_cons_of_ne_nil (List.concat_ne_nil (bracket, contents) others)
    have begins : (written row).head? = some first.1.opening := by
      rw [whole, split]
      rfl
    have ends : (written row).getLast? = some bracket.closing := by
      rw [whole, written_concat]
      simp [Bracket.around, List.getLast?_cons]
    exact Text.trim_of_ends begins ends first.1.isBlank_opening bracket.isBlank_closing

/-- A row of groups, as an expression, has the groups of the row. -/
theorem groups_written (all : ∀ group ∈ row, IsFlat group.2) (some : row ≠ []) :
    groups (written row) = row.map Prod.snd := by
  obtain ⟨⟨bracket, contents⟩, rest, rfl⟩ := List.exists_cons_of_ne_nil some
  have read := groupsFrom_written all
  have shape : written ((bracket, contents) :: rest) =
      bracket.opening :: ((contents ++ [bracket.closing]) ++ written rest) := rfl
  rw [groups, trim_written]
  rw [shape] at read ⊢
  simpa [bracket.isOpening_opening] using read

/-- What every subset of a request keeps to. -/
structure Sound (subset : Subset) : Prop where
  ranked : subset.rank ≤ maxRank
  forward : ∀ slice ∈ subset.slices, 1 ≤ slice.stride

/-- The empty subset is sound. -/
theorem sound_empty : Sound empty := ⟨Nat.zero_le maxRank, by simp [empty]⟩

/-- A subset that is well formed keeps to the greatest rank, and all its slices go forward. It has no
slice only if its expression has no groups. -/
theorem sound_of_parse {expression : Text} {subset : Subset} (parsed : parse expression = .ok subset) :
    subset.Sound ∧ (groups expression ≠ [] → subset.slices ≠ []) := by
  obtain ⟨slices, given, made⟩ := result_bind_eq_ok parsed
  cases made
  have each := forall₂_of_mapM given
  refine ⟨⟨?_, ?_⟩, ?_⟩
  · exact List.length_take_le _ _
  · intro slice among
    exact forall_of_mapM given (fun _ _ => Slice.one_le_stride_of_parse) slice
      (List.mem_of_mem_take among)
  · intro grouped none
    obtain ⟨group, others, split⟩ := List.exists_cons_of_ne_nil grouped
    have count := each.length_eq
    have pieces : 0 < (Text.splitOn ',' group).length :=
      List.length_pos_of_ne_nil (Text.splitWhere_ne_nil _ group)
    have taken : (slices.take maxRank).length = 0 := by
      rw [List.length_eq_zero_iff]
      exact none
    rw [split, List.flatMap_cons, List.length_append] at count
    rw [List.length_take] at taken
    have positive : 0 < maxRank := by decide
    omega

/-- A subset that was taken off a signal selects in at least one dimension, and its text is not
empty. -/
theorem sound_of_extract {signal : Text} {found : Extracted}
    (taken : extract signal = .ok (some found)) :
    found.subset.Sound ∧ found.text ≠ [] ∧ found.subset.slices ≠ [] := by
  unfold extract at taken
  split at taken
  · cases taken
  · cases taken
  · next head text someHead someText split =>
    obtain ⟨subset, parsed, made⟩ := result_bind_eq_ok taken
    cases made
    obtain ⟨-, -, row, same, all⟩ := splitGroups_parts signal.trim
    rw [split] at same
    have read : text = written row := same
    have rowed : row ≠ [] := by
      rintro rfl
      exact someText read
    obtain ⟨sound, slices⟩ := sound_of_parse parsed
    refine ⟨sound, ?_, ?_⟩
    · exact someText
    · apply slices
      rw [read, groups_written (fun group among => (all group among).isFlat) rowed]
      simpa using rowed

end Subset

end SignalAccess

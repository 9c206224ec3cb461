import SignalAccess.Proofs.Request.Groups
import SignalAccess.Proofs.Text.Pieces
import SignalAccess.Proofs.Text.Trim

/-!
# Subsets, as they are written behind signals

A subset is taken off a signal together with the blanks in front of it. What is taken is a whole row of
groups: no group stands directly in front of it. Blanks are another matter, since the signal is trimmed
only once the row is taken: a group in front of blanks stays with the signal, and is a subset of it again.

A row of groups is read element by element, with commas or without: how the elements are distributed over
groups and which brackets stand around a group makes no difference, and an element behind the greatest
rank has to be well formed as well.
-/

namespace SignalAccess

namespace Subset

variable {signal back : Text} {found : Extracted}

/-! ## What is taken off a signal -/

/-- What was taken off a signal, and what stands in front of it. -/
theorem splitGroups_of_extract (taken : extract signal = .ok (some found)) :
    ∃ head, splitGroups signal.trim = (head, found.text) ∧ head ≠ [] ∧ found.text ≠ [] ∧
      found.signal = head.trimEnd ∧ parse found.text = .ok found.subset := by
  unfold extract at taken
  split at taken
  · cases taken
  · cases taken
  · next head text someHead someText split =>
    obtain ⟨subset, parsed, made⟩ := result_bind_eq_ok taken
    cases made
    exact ⟨head, split, someHead, someText, rfl, parsed⟩

/-- A row of groups of slices. -/
def IsRow (t : Text) : Prop :=
  ∃ row, t = written row ∧ ∀ group ∈ row, IsSlices group.2

/-- What a row of groups behind a signal selects. Where there is no group, nothing is selected. -/
structure Selects (t : Text) (subset : Subset) : Prop where
  row : IsRow t
  read : if t = [] then subset = .empty else parse t = .ok subset

/-- A text that ends with no bracket ends with no group. -/
theorem not_endsWithGroup (flat : IsFlat back) (some : back ≠ []) (front : Text) :
    ¬EndsWithGroup (front ++ back) := by
  rintro ⟨before, bracket, contents, -, whole⟩
  obtain ⟨inner, last, rfl⟩ := (List.eq_nil_or_concat' back).resolve_left some
  have same : last = bracket.closing := by
    have ends := congrArg List.getLast? whole
    simpa [Bracket.around, List.getLast?_cons] using ends
  have inside := (flat last (by simp)).2
  rw [same, bracket.isClosing_closing] at inside
  cases inside

/-- A row of groups behind a text that ends with none is taken off it. -/
theorem extract_append {head text : Text} {subset : Subset} (given : head ≠ [])
    (trimmed : head.trim = head) (apart : ¬EndsWithGroup head) (selects : Selects text subset) :
    extract (head ++ text) = .ok (if text = [] then none else some ⟨head, text, subset⟩) := by
  obtain ⟨⟨row, rfl, all⟩, read⟩ := selects
  have whole : Text.trim (head ++ written row) = head ++ written row :=
    Text.trim_append trimmed (trim_written row)
  obtain ⟨c, rest, rfl⟩ := List.exists_cons_of_ne_nil given
  unfold extract
  rw [whole, splitGroups_append apart all]
  by_cases none : written row = []
  · simp [none]
  · rw [if_neg none] at read
    obtain ⟨d, more, split⟩ := List.exists_cons_of_ne_nil none
    rw [split] at read ⊢
    simp [read, Text.trimEnd_of_trim_eq trimmed, bind, Except.bind]

/-- Nothing is taken off a trimmed signal if it ends with no group, or if it is a row of groups. -/
theorem extract_eq_none_iff (trimmed : signal.trim = signal) :
    extract signal = .ok none ↔ ¬EndsWithGroup signal ∨ IsRow signal := by
  obtain ⟨whole, apart, row, rowed, all⟩ := splitGroups_parts signal
  constructor
  · intro nothing
    unfold extract at nothing
    rw [trimmed] at nothing
    split at nothing
    · next text split =>
      rw [split] at whole rowed
      exact .inr ⟨row, whole.trans rowed, all⟩
    · next head split =>
      rw [split, List.append_nil] at whole
      rw [split, ← whole] at apart
      exact .inl apart
    · obtain ⟨subset, -, made⟩ := result_bind_eq_ok nothing
      cases made
  · have closed : ¬EndsWithGroup [] := by
      rintro ⟨front, bracket, contents, -, empty⟩
      simp [Bracket.around] at empty
    rintro (apart | ⟨row, rfl, all⟩)
    · have split : splitGroups (signal ++ written []) = (signal, []) :=
        splitGroups_append apart (by simp)
      rw [written, List.flatMap_nil, List.append_nil] at split
      unfold extract
      rw [trimmed, split]
      cases signal <;> rfl
    · have split : splitGroups ([] ++ written row) = ([], written row) := splitGroups_append closed all
      unfold extract
      rw [trimmed, ← List.nil_append (written row), split]

/-- A subset that was taken off a signal is a whole row of groups, read as it was written; in front of it
stands the signal, with blanks between the two. Without blanks nothing can be taken off that signal again.
With blanks a group may be left on it, and that is taken then, unless nothing stands in front of the
groups that are left. -/
theorem parts_of_extract (taken : extract signal = .ok (some found)) :
    (∃ blanks, signal.trim = found.signal ++ blanks ++ found.text ∧
      (∀ c ∈ blanks, Text.isBlank c = true) ∧ ¬EndsWithGroup (found.signal ++ blanks) ∧
      (blanks = [] → extract found.signal = .ok none)) ∧
    found.signal ≠ [] ∧ found.text ≠ [] ∧ IsRow found.text ∧
    parse found.text = .ok found.subset ∧
    (extract found.signal = .ok none ↔ ¬EndsWithGroup found.signal ∨ IsRow found.signal) := by
  obtain ⟨head, split, someHead, someText, signalled, parsed⟩ := splitGroups_of_extract taken
  obtain ⟨whole, apart, row, rowed, all⟩ := splitGroups_parts signal.trim
  rw [split] at whole apart rowed
  obtain ⟨c, rest, rfl⟩ := List.exists_cons_of_ne_nil someHead
  have ink : Text.isBlank c = false :=
    (Text.ends_of_trim_eq (Text.trim_trim signal)).1 c (by rw [whole]; rfl)
  -- The signal starts with no blank, so that its front is trimmed by taking blanks off its end.
  have started : Text.trimStart (c :: rest) = c :: rest := List.dropWhile_cons_of_neg (by simp [ink])
  have front : Text.trim (c :: rest) = found.signal := by rw [Text.trim, started, signalled]
  have trimmed : Text.trim found.signal = found.signal := by rw [← front, Text.trim_trim]
  obtain ⟨blanks, behind, blank⟩ := Text.exists_trimEnd_eq (c :: rest)
  rw [← signalled] at behind
  have again := extract_eq_none_iff trimmed
  refine ⟨⟨blanks, ?_, blank, ?_, ?_⟩, ?_, someText, ⟨row, rowed, all⟩, parsed, again⟩
  · rw [← behind]
    exact whole
  · rw [← behind]
    exact apart
  · rintro rfl
    rw [List.append_nil] at behind
    exact again.mpr (.inl (behind ▸ apart))
  · intro empty
    rw [empty, List.nil_append] at behind
    rw [blank c (behind ▸ List.mem_cons_self)] at ink
    cases ink

/-- What is taken off `ip {0:9}[#]`. -/
def whollyTaken : Extracted := ⟨"ip".toList, "{0:9}[#]".toList, ⟨[⟨0, 9, 1, 10, false⟩, Slice.last]⟩⟩

/-- What is taken off `ip[1] [2]`. -/
def partlyTaken : Extracted := ⟨"ip[1]".toList, "[2]".toList, ⟨[Slice.index 2]⟩⟩

/-- Two groups are taken at once, but not over a blank between them. -/
theorem parts_of_extract_spaced :
    extract "ip {0:9}[#]".toList = .ok (some whollyTaken) ∧
    extract whollyTaken.signal = .ok none ∧
    extract "ip[1] [2]".toList = .ok (some partlyTaken) ∧
    EndsWithGroup partlyTaken.signal ∧ ¬IsRow partlyTaken.signal := by
  have whole : extract "ip {0:9}[#]".toList = .ok (some whollyTaken) := by decide +kernel
  have part : extract "ip[1] [2]".toList = .ok (some partlyTaken) := by decide +kernel
  obtain ⟨-, -, -, -, -, nothing⟩ := parts_of_extract whole
  obtain ⟨-, -, -, -, -, again⟩ := parts_of_extract part
  have apart : ¬EndsWithGroup whollyTaken.signal := lastGroup?_eq_none_iff.mp (by decide +kernel)
  have left : extract partlyTaken.signal ≠ .ok none := by decide +kernel
  rw [Ne, again, not_or, not_not] at left
  exact ⟨whole, nothing.mpr (.inl apart), part, left⟩

/-- Not every group at the end of a signal is taken off it. -/
theorem not_forall_extract_eq_none :
    ¬ ∀ (signal : Text) (found : Extracted), extract signal = .ok (some found) →
      extract found.signal = .ok none := by
  intro claim
  have nothing := claim "ip[1] [2]".toList partlyTaken (by decide +kernel)
  revert nothing
  decide +kernel

/-! ## Elements, distributed over groups -/

variable {elements : List Text} {distribution : List (Bracket × List Text)}

/-- A text that can stand as an element of a group: it holds neither commas nor brackets. -/
def IsElement (t : Text) : Prop := ',' ∉ t ∧ IsFlat t

instance : DecidablePred IsElement := fun t => inferInstanceAs (Decidable (',' ∉ t ∧ IsFlat t))

/-- A way to distribute elements, in their order, over groups none of which is left empty. -/
structure Distributes (distribution : List (Bracket × List Text)) (elements : List Text) : Prop where
  whole : distribution.flatMap Prod.snd = elements
  filled : ∀ group ∈ distribution, group.2 ≠ []

/-- The groups over which elements are distributed, with commas between the elements of each. -/
def rowOf (distribution : List (Bracket × List Text)) : List (Bracket × Text) :=
  distribution.map fun (bracket, elements) => (bracket, Text.joinBy [','] elements)

/-- Texts without brackets have none when commas join them. -/
theorem isFlat_joinBy {pieces : List Text} (flat : ∀ piece ∈ pieces, IsFlat piece) :
    IsFlat (Text.joinBy [','] pieces) := by
  cases pieces with
  | nil =>
    intro c among
    cases among
  | cons first more =>
    intro c among
    rw [Text.joinBy_cons, List.mem_append] at among
    rcases among with inFirst | behind
    · exact flat first List.mem_cons_self c inFirst
    · obtain ⟨piece, member, held⟩ := List.mem_flatMap.mp behind
      rcases List.mem_cons.mp held with rfl | inPiece
      · decide
      · exact flat piece (List.mem_cons_of_mem first member) c inPiece

/-- The elements of a group are found between its commas. -/
theorem splitOn_elements {pieces : List Text} (some : pieces ≠ [])
    (plain : ∀ piece ∈ pieces, IsElement piece) :
    Text.splitOn ',' (Text.joinBy [','] pieces) = pieces := by
  obtain ⟨first, more, rfl⟩ := List.exists_cons_of_ne_nil some
  rw [Text.splitOn_joinBy first (fun piece among => (plain piece among).1) List.not_mem_nil]
  simp

/-- However elements are distributed over groups, they are what is read. -/
theorem elements_of_rowOf (some : elements ≠ []) (plain : ∀ element ∈ elements, IsElement element)
    (distributes : Distributes distribution elements) :
    (groups (written (rowOf distribution))).flatMap (Text.splitOn ',') = elements := by
  have member : ∀ group ∈ distribution, ∀ element ∈ group.2, IsElement element := by
    intro group among element inside
    apply plain
    rw [← distributes.whole]
    exact List.mem_flatMap.mpr ⟨group, among, inside⟩
  have flat : ∀ group ∈ rowOf distribution, IsFlat group.2 := by
    rw [rowOf, List.forall_mem_map]
    intro group among
    exact isFlat_joinBy fun element inside => (member group among element inside).2
  have rowed : rowOf distribution ≠ [] := by
    intro empty
    apply some
    rw [← distributes.whole, List.map_eq_nil_iff.mp empty]
    rfl
  rw [groups_written flat rowed, rowOf, List.map_map, List.flatMap_map, ← distributes.whole]
  apply List.flatMap_congr
  intro group among
  exact splitOn_elements (distributes.filled group among) (member group among)

/-- Elements that are distributed over groups are read in their order, whatever the groups are: it fails
if any of them is no slice, and otherwise gives the slices up to the greatest rank. -/
theorem parse_written_rowOf (some : elements ≠ []) (plain : ∀ element ∈ elements, IsElement element)
    (distributes : Distributes distribution elements) :
    (parse (written (rowOf distribution)) =
      (elements.mapM Slice.parse).map fun slices => ⟨slices.take maxRank⟩) ∧
    ((∃ failure, parse (written (rowOf distribution)) = .error failure) ↔
      ∃ element ∈ elements, ∃ failure, Slice.parse element = .error failure) ∧
    (∀ subset, parse (written (rowOf distribution)) = .ok subset ↔
      ∃ slices, List.Forall₂ (fun element slice => Slice.parse element = .ok slice) elements slices ∧
        subset = ⟨slices.take maxRank⟩) := by
  have read : parse (written (rowOf distribution)) =
      (elements.mapM Slice.parse).map fun slices => ⟨slices.take maxRank⟩ := by
    rw [parse, elements_of_rowOf some plain distributes]
    rfl
  refine ⟨read, ?_, ?_⟩
  · rw [read, ← exists_mapM_eq_error_iff]
    cases elements.mapM Slice.parse with
    | error failure => exact ⟨fun _ => ⟨failure, rfl⟩, fun _ => ⟨failure, rfl⟩⟩
    | ok slices => simp [Except.map]
  · intro subset
    rw [read]
    constructor
    · intro done
      cases parsed : elements.mapM Slice.parse with
      | error failure =>
        rw [parsed] at done
        cases done
      | ok slices =>
        rw [parsed] at done
        cases done
        exact ⟨slices, forall₂_of_mapM parsed, rfl⟩
    · rintro ⟨slices, each, rfl⟩
      rw [mapM_of_forall₂ each]
      rfl

/-- Eleven elements, and a way to distribute them. -/
def crowded : List Text := "1:3".toList :: List.replicate 10 "#".toList

/-- Two groups that hold the eleven elements. -/
def crowdedGroups : List (Bracket × List Text) :=
  [(.square, ["1:3".toList, "#".toList]), (.brace, List.replicate 9 "#".toList)]

/-- The eleventh slice is dropped. -/
theorem parse_written_rowOf_crowded :
    written (rowOf crowdedGroups) = "[1:3,#]{#,#,#,#,#,#,#,#,#}".toList ∧
    crowded ≠ [] ∧ (∀ element ∈ crowded, IsElement element) ∧ Distributes crowdedGroups crowded ∧
    parse (written (rowOf crowdedGroups)) =
      .ok ⟨⟨1, 3, 1, 3, false⟩ :: List.replicate 9 Slice.last⟩ := by
  have some : crowded ≠ [] := List.cons_ne_nil _ _
  have plain : ∀ element ∈ crowded, IsElement element := by decide +kernel
  have distributes : Distributes crowdedGroups crowded := ⟨rfl, by decide⟩
  obtain ⟨read, -, -⟩ := parse_written_rowOf some plain distributes
  refine ⟨by decide +kernel, some, plain, distributes, ?_⟩
  rw [read]
  decide +kernel

end Subset

end SignalAccess

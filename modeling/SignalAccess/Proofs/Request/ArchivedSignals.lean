import SignalAccess.Proofs.Request.Archives
import SignalAccess.Proofs.Request.CallForms
import SignalAccess.Proofs.Request.Subsets

/-!
# Signals of an archive

A signal without a source is written as an archive, a delimiter, a name and a row of groups. It is read
in steps that each take one of the parts off the text: the groups first, from the end, then the archive
in front of the first delimiter. None of them reaches into what is left for another, so the parts come
out as they were written, and what remains is a name that calls no function.

What is written behind the name is what is selected, with one exception: where there are no groups,
nothing is selected, though the empty text read as an expression is the whole of one dimension.
-/

namespace SignalAccess

open Recording

namespace RequestReader

variable {reader : RequestReader} {default delimiter archive name text : Text} {subset : Subset}
  {request : Request}

/-- An archive and a name that a delimiter keeps apart. -/
structure Archived (default delimiter archive name : Text) : Prop where
  given : archive ≠ []
  short : archive.length ≤ 1022
  legal : Text.isLegalPath archive = true
  other : Text.equalIgnoringCase archive default = false
  named : name ≠ []
  trimmed : Text.trim name = name
  flat : Subset.IsFlat name
  uncalled : '(' ∉ name ∧ ')' ∉ name
  cut : (archive ++ delimiter ++ name).breakOn delimiter = some (archive, name)

instance decidableArchived : Decidable (Archived default delimiter archive name) :=
  decidable_of_iff
    (archive ≠ [] ∧ archive.length ≤ 1022 ∧ Text.isLegalPath archive = true ∧
      Text.equalIgnoringCase archive default = false ∧ name ≠ [] ∧ Text.trim name = name ∧
      Subset.IsFlat name ∧ ('(' ∉ name ∧ ')' ∉ name) ∧
      (archive ++ delimiter ++ name).breakOn delimiter = some (archive, name))
    ⟨fun ⟨given, short, legal, other, named, trimmed, flat, uncalled, cut⟩ =>
        ⟨given, short, legal, other, named, trimmed, flat, uncalled, cut⟩,
      fun ⟨given, short, legal, other, named, trimmed, flat, uncalled, cut⟩ =>
        ⟨given, short, legal, other, named, trimmed, flat, uncalled, cut⟩⟩

namespace Archived

/-- An archive can only stand in front of a name where there is a delimiter. -/
theorem delimited (archived : Archived default delimiter archive name) : delimiter ≠ [] := by
  rintro rfl
  have cut := archived.cut
  rw [Text.breakOn_nil, Option.some.injEq, Prod.mk.injEq] at cut
  exact archived.given cut.1.symm

/-- An archive and a name start and end with no blank, whatever the delimiter holds. -/
theorem trim_append (archived : Archived default delimiter archive name) :
    Text.trim (archive ++ delimiter ++ name) = archive ++ delimiter ++ name := by
  obtain ⟨first, -⟩ := Text.ends_of_trim_eq (Text.trim_of_isLegalPath archived.legal)
  obtain ⟨-, last⟩ := Text.ends_of_trim_eq archived.trimmed
  apply Text.trim_eq_self
  · intro c starts
    rw [List.append_assoc, List.head?_append_of_ne_nil _ archived.given] at starts
    exact first c starts
  · intro c ends
    rw [List.getLast?_append_of_ne_nil _ archived.named] at ends
    exact last c ends

/-- The groups behind the name are taken off, and nothing else. -/
theorem extract_append (archived : Archived default delimiter archive name)
    (selects : Subset.Selects text subset) :
    Subset.extract (archive ++ delimiter ++ name ++ text) = .ok (if text = [] then none else
      some ⟨archive ++ delimiter ++ name, text, subset⟩) := by
  have apart := Subset.not_endsWithGroup archived.flat archived.named (archive ++ delimiter)
  refine Subset.extract_append ?_ archived.trim_append apart selects
  simp [archived.given]

/-- A name without brackets is not inside any. -/
theorem insideBrackets_eq (archived : Archived default delimiter archive name) :
    insideBrackets name = false := by
  have absent (c : Char) (closes : Subset.isClosing c = true) : Text.breakAt c name = none := by
    refine Text.breakAt_eq_none_iff.mpr fun among => ?_
    have flat := (archived.flat c among).2
    rw [closes] at flat
    cases flat
  simp [insideBrackets, absent ']' rfl, absent '}' rfl]

/-- The archive is taken off what is left. -/
theorem splitArchive_eq (archived : Archived default delimiter archive name) (known : Text) :
    splitArchive default delimiter true ⟨known, archive ++ delimiter ++ name⟩ =
      (.ok (), ⟨archive, name⟩) := by
  have trimmed := Text.trim_of_isLegalPath archived.legal
  have cut : (Text.trim (archive ++ delimiter ++ name)).breakOn delimiter = some (archive, name) := by
    rw [archived.trim_append]
    exact archived.cut
  have short : Text.byteLength archive < Limit.field - 1 := by
    rw [Text.byteLength_of_isLegalPath archived.legal]
    exact Nat.lt_succ_of_le archived.short
  have split := splitArchive_of_archive known archived.delimited cut short
    (trimmed.symm ▸ archived.other) (trimmed.symm ▸ archived.legal) archived.insideBrackets_eq
  rw [split, trimmed, archived.trimmed]

/-- The name calls nothing. -/
theorem outerArguments?_eq (archived : Archived default delimiter archive name) :
    Call.outerArguments? name = none := by
  simp [Call.outerArguments?, Text.breakAt_eq_none_iff.mpr archived.uncalled.1]

end Archived

/-! ## The steps of the signal -/

/-- The groups of a signal are kept apart from it. -/
theorem readSubset_of_archived (archived : Archived default delimiter archive name)
    (selects : Subset.Selects text subset) (unselected : request.subsetText = [])
    (empty : request.subset = .empty)
    (signal : request.signal = archive ++ delimiter ++ name ++ text) :
    readSubset request = pure { request with
      signal := archive ++ delimiter ++ name, subsetText := text, subset := subset } := by
  rw [readSubset, signal, archived.extract_append selects]
  by_cases none : text = []
  · have nothing : subset = .empty := by simpa [none] using selects.read
    cases request
    simp_all [ofResult]
  · simp [none, ofResult]

/-- The archive of a signal is kept apart from it. -/
theorem readArchive_of_archived
    (archived : Archived reader.configuration.archive request.delimiter archive name)
    (signal : request.signal = archive ++ request.delimiter ++ name) :
    reader.readArchive true request = pure { request with archive := archive, signal := name } := by
  have some : archive.isEmpty = false := List.isEmpty_eq_false_iff.mpr archived.given
  have split := archived.splitArchive_eq request.archive
  rw [← signal] at split
  simp [readArchive, extractArchive, split, ofResult, some]

/-- A signal of an archive, in a request without a source, is left to the generic reader. -/
theorem readSignal_of_archived (unread : request.kind = .unknown)
    (archived : Archived reader.configuration.archive request.delimiter archive name)
    (selects : Subset.Selects text subset) (unselected : request.subsetText = [])
    (empty : request.subset = .empty)
    (signal : request.signal = archive ++ request.delimiter ++ name ++ text) :
    reader.readSignal true false false request = pure { request with
      kind := .generic, archive := archive, signal := name, subsetText := text, subset := subset } := by
  let taken := { request with
    signal := archive ++ request.delimiter ++ name, subsetText := text, subset := subset }
  have selected : readSubset request = pure taken :=
    readSubset_of_archived archived selects unselected empty signal
  have reduced : (taken.kind != .forward && !false) = true := by
    show (request.kind != .forward && !false) = true
    rw [unread]
    rfl
  have split : reader.readArchive true taken =
      pure { taken with archive := archive, signal := name } := readArchive_of_archived archived rfl
  simp only [readSignal, selected, pure_bind, reduced, split, readSignalCall,
    archived.outerArguments?_eq]
  rfl

/-! ## The whole signal -/

/-- The request for the data object of an archive, with what is selected of it. -/
def archivedRequest (reader : RequestReader) (delimiter archive name text : Text) (subset : Subset) :
    Request :=
  { Request.blank with
    kind := .generic, archive := archive, device := reader.configuration.device, signal := name
    subsetText := text, delimiter := delimiter, subset := subset }

/-- Without a source and without a proxy, a signal that is written as an archive, a delimiter, a name
and a row of groups is read as just that: no step disturbs what another one takes off. -/
theorem parse_archived (reader : RequestReader) (unproxied : reader.configuration.proxy = none)
    (choice : Text) {archive name text : Text} {subset : Subset}
    (archived : Archived reader.configuration.archive (reader.configuration.delimiterOr choice) archive
      name)
    (selects : Subset.Selects text subset)
    (asked : (archive ++ reader.configuration.delimiterOr choice ++ name ++ text).equalIgnoringCase
      (reader.configuration.archive ++ reader.configuration.delimiterOr choice) = false)
    (log : FailureLog) :
    reader.parse [] (archive ++ reader.configuration.delimiterOr choice ++ name ++ text) choice log =
      (.ok (reader.archivedRequest (reader.configuration.delimiterOr choice) archive name text subset),
        log) := by
  have trimmed : Text.trim (archive ++ reader.configuration.delimiterOr choice ++ name ++ text) =
      archive ++ reader.configuration.delimiterOr choice ++ name ++ text := by
    obtain ⟨row, rfl, -⟩ := selects.row
    exact Text.trim_append archived.trim_append (Subset.trim_written row)
  have given : isNoSignal reader.configuration.archive (reader.configuration.delimiterOr choice)
      (archive ++ reader.configuration.delimiterOr choice ++ name ++ text) = false := by
    rw [isNoSignal, asked, Bool.or_false]
    simp [archived.given]
  rw [parse, read, readWithin, trimmed, readSource_of_absent unproxied (lead_nil _ _) given,
    readSignal_of_archived rfl archived selects rfl rfl rfl]
  rfl

/-- The first ten indices of one dimension, and the last index of the next. -/
def firstTenAndLast : Subset := ⟨[⟨0, 9, 1, 10, false⟩, Slice.last]⟩

/-- A signal of an archive other than the default one, with and without groups. -/
theorem parse_archived_underMast :
    underMast.configuration.proxy = none ∧
    Archived "MAST".toList "::".toList "AMC".toList "ip".toList ∧
    Subset.Selects "{0:9}[#]".toList firstTenAndLast ∧ Subset.Selects [] .empty ∧
    (underMast.parse [] "AMC::ip{0:9}[#]".toList [] .empty).1 = .ok
      (underMast.archivedRequest "::".toList "AMC".toList "ip".toList "{0:9}[#]".toList
        firstTenAndLast) ∧
    (underMast.parse [] "AMC::ip".toList [] .empty).1 = .ok
      (underMast.archivedRequest "::".toList "AMC".toList "ip".toList [] .empty) := by
  have archived : Archived "MAST".toList "::".toList "AMC".toList "ip".toList := by
    decide +kernel
  have row : Subset.IsRow "{0:9}[#]".toList :=
    ⟨[(.brace, "0:9".toList), (.square, "#".toList)], by decide +kernel, by decide +kernel⟩
  have selects : Subset.Selects "{0:9}[#]".toList firstTenAndLast := ⟨row, by decide +kernel⟩
  have nothing : Subset.Selects [] .empty := ⟨⟨[], rfl, by simp⟩, rfl⟩
  have groups := parse_archived underMast rfl [] archived selects (by decide +kernel) .empty
  have plain := parse_archived underMast rfl [] archived nothing (by decide +kernel) .empty
  exact ⟨rfl, archived, selects, nothing, congrArg Prod.fst groups, congrArg Prod.fst plain⟩

/-- An installation whose default archive holds a delimiter. -/
def underCut : RequestReader :=
  ⟨{ Configuration.standard with archive := "a::b".toList }, .standard, .bare⟩

/-- Where no groups are written, nothing is selected, not the whole of one dimension. And a signal that
is the default archive with its delimiter but for the case of its letters asks for nothing. -/
theorem not_forall_parse_archived :
    (¬∀ (reader : RequestReader) (choice archive name text : Text) (subset : Subset) (log : FailureLog),
      let delimiter := reader.configuration.delimiterOr choice
      let signal := archive ++ delimiter ++ name ++ text
      reader.configuration.proxy = none →
      Archived reader.configuration.archive delimiter archive name →
      Subset.IsRow text → Subset.parse text = .ok subset →
      signal.equalIgnoringCase (reader.configuration.archive ++ delimiter) = false →
      reader.parse [] signal choice log =
        (.ok (reader.archivedRequest delimiter archive name text subset), log)) ∧
    ¬∀ (reader : RequestReader) (choice archive name text : Text) (subset : Subset) (log : FailureLog),
      let delimiter := reader.configuration.delimiterOr choice
      let signal := archive ++ delimiter ++ name ++ text
      reader.configuration.proxy = none →
      Archived reader.configuration.archive delimiter archive name →
      Subset.Selects text subset → signal ≠ reader.configuration.archive ++ delimiter →
      reader.parse [] signal choice log =
        (.ok (reader.archivedRequest delimiter archive name text subset), log) := by
  constructor
  · intro claimed
    have archived : Archived "MAST".toList "::".toList "AMC".toList "ip".toList := by
      decide +kernel
    have read := claimed underMast [] "AMC".toList "ip".toList [] ⟨[Slice.whole]⟩ .empty rfl archived
      ⟨[], rfl, by simp⟩ (by decide +kernel) (by decide +kernel)
    revert read
    decide +kernel
  · intro claimed
    have archived : Archived "a::b".toList "::".toList "A".toList "B::".toList := by
      decide +kernel
    have read := claimed underCut [] "A".toList "B::".toList [] .empty .empty rfl archived
      ⟨⟨[], rfl, by simp⟩, rfl⟩ (by decide)
    revert read
    decide +kernel

end RequestReader

end SignalAccess

import SignalAccess.Proofs.Request.Groups
import SignalAccess.Proofs.Request.Steps

/-!
# Requests are complete

A request that is read leaves nothing open that its reader needs: a reader is chosen, the delimiter is
the one in effect, the default archive stands where none was named, and what it selects is well formed
and written down whenever something is selected. The registry's part in this is that it keeps no
reader without a kind; the grammar's part is that no group of slices is empty.

The request is followed along its way. While the source is read, nothing of the signal is; the subset
is taken off first and stays as it is, the archive is next, and the reader is settled last. A device
only leads to another source, so the induction is on how many sources may be read.
-/

namespace SignalAccess

open Recording

namespace Request

/-- A request whose signal was not read yet. -/
structure Unread (delimiter : Text) (request : Request) : Prop where
  delimited : request.delimiter = delimiter
  text : request.subsetText = []
  subset : request.subset = .empty

/-- A request whose subset was read. -/
structure Selected (delimiter : Text) (request : Request) : Prop where
  delimited : request.delimiter = delimiter
  /-- The subset keeps to the greatest rank, and its slices go forward. -/
  sound : request.subset.Sound
  /-- What is selected is written down, and nothing else. -/
  selected : request.subsetText = [] ↔ request.subset.slices = []

/-- What every request that was read keeps to. -/
structure Complete (configuration : Configuration) (delimiter : Text) (request : Request) : Prop
    extends request.Selected delimiter where
  resolved : request.kind ≠ .unknown
  archived : request.archive = [] → configuration.archive = []

/-- A request that selects nothing has read its subset. -/
theorem Unread.selected {delimiter : Text} {request : Request} (unread : request.Unread delimiter) :
    request.Selected delimiter where
  delimited := unread.delimited
  sound := by
    rw [unread.subset]
    exact Subset.sound_empty
  selected := by simp [unread.text, unread.subset, Subset.empty]

end Request

namespace RequestReader

variable {reader : RequestReader} {delimiter : Text} {request : Request}

/-- Reading the subset of a signal selects, and leaves the kind of the reader as it was. -/
theorem selected_of_readSubset (unread : request.Unread delimiter) :
    (readSubset request).Yields fun taken =>
      taken.Selected delimiter ∧ taken.kind = request.kind := by
  refine (yields_readSubset request).mono ?_
  rintro taken (rfl | ⟨found, extracted, rfl⟩)
  · exact ⟨unread.selected, rfl⟩
  · obtain ⟨sound, text, slices⟩ := Subset.sound_of_extract extracted
    refine ⟨⟨unread.delimited, sound, ?_⟩, rfl⟩
    constructor
    · intro empty
      exact absurd empty text
    · intro none
      exact absurd none slices

/-- The signal completes a request whose reader its source has chosen, and one that has no source. -/
theorem complete_of_readSignal (resolved : reader.registry.Resolved)
    {noSource isServer isForeign : Bool} (unread : request.Unread delimiter)
    (decided : noSource = false → request.kind ≠ .unknown) :
    (reader.readSignal noSource isServer isForeign request).Yields
      (Request.Complete reader.configuration delimiter) := by
  refine (selected_of_readSubset unread).bind fun taken ⟨selected, kept⟩ => ?_
  refine (yields_readArchive _ taken).bind ?_
  rintro _ ⟨archive, signal, rfl, archived⟩
  refine (yields_readSignalCall _ _).bind ?_
  rintro ⟨called, isCall⟩ ⟨arguments, function, rfl⟩
  obtain ⟨kind, format, chosenFunction, chosen, given⟩ := chooseReader_eq reader noSource
    isCall { taken with
      archive := archive, signal := signal, arguments := arguments, function := function }
  refine yields_pure ?_
  rw [chosen]
  refine ⟨⟨selected.delimited, selected.sound, selected.selected⟩, ?_, archived⟩
  rcases given with ⟨sourced, same⟩ | offers
  · intro unknown
    exact decided sourced ((same.trans kept).symm.trans unknown)
  · exact offers.ne_unknown resolved

/-- The address of a server changes nothing of what makes a request complete. -/
theorem complete_of_readAddress {configuration : Configuration} (text : Text)
    (complete : request.Complete configuration delimiter) :
    (readAddress text request).Yields (Request.Complete configuration delimiter) := by
  refine (yields_readAddress text request).mono ?_
  rintro read ⟨server, pulse, path, file, rfl⟩
  exact ⟨⟨complete.delimited, complete.sound, complete.selected⟩, complete.resolved,
    complete.archived⟩

/-- A request that its source has sent to a reader is completed by its signal and its address. -/
theorem complete_of_sent (resolved : reader.registry.Resolved) {isServer isForeign : Bool}
    (text : Text) (unread : request.Unread delimiter) (decided : request.kind ≠ .unknown) :
    (reader.readSignal false isServer isForeign request >>= readAddress text).Yields
      (Request.Complete reader.configuration delimiter) :=
  (complete_of_readSignal resolved unread fun _ => decided).bind fun _ complete =>
    complete_of_readAddress text complete

/-- A forwarded request has the default archive and selects nothing. -/
theorem complete_forwarded (configuration : Configuration) (target : Text)
    (unread : request.Unread delimiter) :
    (forwarded configuration target request).Complete configuration delimiter :=
  ⟨⟨unread.delimited, unread.selected.sound, unread.selected.selected⟩, RequestKind.noConfusion, id⟩

/-- Whatever stands behind a name gives a complete request, if other sources do. -/
theorem complete_of_readBehind (resolved : reader.registry.Resolved) {name text : Text}
    (unread : request.Unread delimiter) {redirected : Text → Recording Request}
    (others : ∀ other, (redirected other).Yields (Request.Complete reader.configuration delimiter))
    {named : Named} (given : reader.NamedBy name text request named) :
    (reader.readBehind text redirected named).Yields
      (Request.Complete reader.configuration delimiter) := by
  obtain ⟨delimited, written, subset⟩ := unread
  cases given with
  | foreign absent =>
    exact complete_of_sent resolved text ⟨delimited, written, subset⟩ RequestKind.noConfusion
  | redirect given device => exact others _
  | file given file =>
    have offers := Registry.offers_of_byFormat? given
    exact complete_of_sent resolved text ⟨delimited, written, subset⟩ (offers.ne_unknown resolved)
  | placed given device file =>
    have offers := Registry.offers_of_byFormat? given
    exact complete_of_sent resolved text ⟨delimited, written, subset⟩ (offers.ne_unknown resolved)

/-- A source gives a complete request, if the sources do that it redirects to. -/
theorem complete_of_readSource (resolved : reader.registry.Resolved) (signal : Text)
    {redirected : Text → Recording Request}
    (others : ∀ other, (redirected other).Yields (Request.Complete reader.configuration delimiter))
    (source : Text) :
    (reader.readSource delimiter signal redirected source).Yields
      (Request.Complete reader.configuration delimiter) := by
  rw [readSource]
  split
  · exact yields_refuse _ _
  · split
    · exact yields_pure (complete_forwarded _ _ ⟨rfl, rfl, rfl⟩)
    · split
      · exact complete_of_readSignal resolved ⟨rfl, rfl, rfl⟩ nofun
      · next text _ =>
        refine (yields_readPlain text signal _).bind ?_
        rintro _ ⟨kind, format, pulse, pass, passName, device, path, file, function, arguments, rfl,
          offers⟩
        exact complete_of_readSignal resolved ⟨rfl, rfl, rfl⟩ fun _ => offers.ne_unknown resolved
      · next name text _ =>
        refine (yields_readNamed name text _).bind fun named given => ?_
        exact complete_of_readBehind resolved ⟨rfl, rfl, rfl⟩ others given

/-- By induction on how many sources may be read. -/
theorem complete_of_readWithin (reader : RequestReader) (resolved : reader.registry.Resolved)
    (delimiter signal : Text) (sources : Nat) (source : Text) :
    (reader.readWithin delimiter signal sources source).Yields
      (Request.Complete reader.configuration delimiter) := by
  induction sources generalizing source with
  | zero => exact yields_refuse _ _
  | succ sources inductionHypothesis =>
    exact complete_of_readSource resolved signal inductionHypothesis source

/-- A request that is read has a reader, the delimiter in effect, an archive unless there is no default
one, and a subset that is well formed and written down whenever it selects anything. The registry is
any that readers were registered in one after the other. -/
theorem parse_complete (configuration : Configuration) (readers : List Reader) (machine : Machine)
    (source signal choice : Text) (log : FailureLog) {request : Request}
    (done : (RequestReader.parse ⟨configuration, Registry.empty.registerAll readers, machine⟩
      source signal choice log).1 = .ok request) :
    request.Complete configuration (configuration.delimiterOr choice) := by
  have resolved := Registry.resolved_empty.registerAll readers
  have yields := complete_of_readWithin ⟨configuration, Registry.empty.registerAll readers, machine⟩
    resolved (configuration.delimiterOr choice) signal.trim (configuration.maxRedirects + 1) source
  exact yields.of_outcome done

/-- A file of a format that came without a kind, with an archive and two groups of slices. -/
theorem parse_complete_selection :
    let configuration := { Configuration.standard with archive := "STORE".toList }
    let read := RequestReader.parse ⟨configuration, Registry.standard, .bare⟩
      "CSV::/shots/7.csv".toList "MY::ip[0:3]{#}".toList [] .empty
    let request := { Request.blank with
      kind := .added 100, format := "CSV".toList, file := "7.csv".toList, archive := "MY".toList
      signal := "ip".toList, subsetText := "[0:3]{#}".toList
      subset := ⟨[⟨0, 3, 1, 4, false⟩, .last]⟩
      source := "CSV::/shots/7.csv".toList, delimiter := "::".toList }
    read.1 = .ok request ∧ request.Complete configuration "::".toList := by
  intro configuration read request
  have done : read.1 = .ok request := by decide +kernel
  exact ⟨done, parse_complete configuration Registry.standardReaders .bare _ _ [] .empty done⟩

end RequestReader

end SignalAccess

import SignalAccess.Proofs.Failure.Recording
import SignalAccess.Proofs.Registry
import SignalAccess.Request.Parser

/-!
# What the steps of reading write

Each step of reading a request writes a few of its fields and leaves the others as they were. These
laws say which, and where the values come from as far as that is fixed: the reader that stands behind
a name, the subset that was taken off the signal, the default archive in place of none, and kinds that
the registry offers. What a whole request keeps to is derived from them.
-/

namespace SignalAccess

open Recording

namespace Address

/-- A request at an address of a tree differs from the one before in these fields at most. -/
theorem tree_eq {text : Text} {request found : Request} (given : tree text request = .ok found) :
    ∃ server pulse file,
      found = { request with server := server, pulse := pulse, file := file } := by
  rcases tree_cases text with refused | ⟨server, sets⟩ | ⟨server, pulse, file, sets⟩
  · rw [refused] at given
    cases given
  · rw [sets] at given
    cases given
    exact ⟨server, request.pulse, request.file, rfl⟩
  · rw [sets] at given
    cases given
    exact ⟨server, pulse, file, rfl⟩

/-- Reading an address on another server sets the server and the file, and nothing else. -/
theorem remote_eq (text : Text) (request : Request) :
    ∃ server file, remote text request = { request with server := server, file := file } := by
  rw [remote]
  split
  · split
    · exact ⟨_, _, rfl⟩
    · exact ⟨_, _, rfl⟩
  · split
    · exact ⟨_, _, rfl⟩
    · exact ⟨_, _, rfl⟩

/-- Reading the place of a database sets the server and the path. -/
theorem database_eq (request : Request) :
    ∃ server path, database request = { request with server := server, path := path } := by
  rw [database]
  split
  · exact ⟨_, _, rfl⟩
  · exact ⟨_, _, rfl⟩

end Address

namespace RequestReader

variable {reader : RequestReader}

/-! ## The source -/

/-- A pulse is asked for in general, without a path. -/
theorem atPulse_eq (request : Request) (found : Pulse) :
    ∃ pulse pass passName, atPulse request found = { request with
      kind := .generic, path := [], pulse := pulse, pass := pass, passName := passName } := by
  rw [atPulse]
  split
  · exact ⟨_, _, _, rfl⟩
  · split
    · exact ⟨_, _, _, rfl⟩
    · exact ⟨_, _, _, rfl⟩

/-- Reading the pulse in a path sets the kind, the path and what is said of the pulse. -/
theorem pulseInPath_eq (text : Text) (request : Request) :
    ∃ kind path pulse pass passName, pulseInPath text request = { request with
      kind := kind, path := path, pulse := pulse, pass := pass, passName := passName } := by
  rw [pulseInPath]
  split
  · cases Pulse.ofText? (text.drop 1) with
    | none => exact ⟨_, _, _, _, _, rfl⟩
    | some found =>
      obtain ⟨pulse, pass, passName, same⟩ := atPulse_eq request found
      exact ⟨_, _, _, _, _, same⟩
  · exact ⟨_, _, _, _, _, rfl⟩

/-- Sending a request to the server's own library sets its kind, to one that is on offer, and its
format. -/
theorem sendToServerSide_eq (reader : RequestReader) (request : Request) :
    ∃ kind format, reader.sendToServerSide request = { request with kind := kind, format := format } ∧
      reader.registry.Offers kind := by
  rw [sendToServerSide]
  split
  · next found => exact ⟨_, _, rfl, Registry.offers_of_serverSide? found⟩
  · exact ⟨_, _, rfl, .serverSide⟩

/-- Sending a request to the library that its call names sets its kind, to one that is on offer, and
its format, if anything. -/
theorem sendToLibrary_eq (reader : RequestReader) (text signal : Text) (request : Request) :
    ∃ kind format, reader.sendToLibrary text signal request =
        { request with kind := kind, format := format } ∧
      (kind = request.kind ∨ reader.registry.Offers kind) := by
  rw [sendToLibrary]
  split
  · next found =>
    obtain ⟨name, -, given⟩ := Option.bind_eq_some_iff.mp found
    exact ⟨_, _, rfl, .inr (Registry.offers_of_byFormat? given)⟩
  · exact ⟨_, _, rfl, .inl rfl⟩

/-- A call goes to a reader of functions. -/
theorem yields_readCall (text signal : Text) (request : Request) :
    (reader.readCall text signal request).Yields fun read => ∃ kind format function arguments,
      read = { request with
        kind := kind, format := format, function := function, arguments := arguments } ∧
      reader.registry.Offers kind := by
  rw [readCall]
  split
  · exact yields_refuse _ _
  · refine Yields.behind fun arguments => ?_
    obtain ⟨kind, format, served, offers⟩ := sendToServerSide_eq reader request
    rw [served]
    obtain ⟨chosen, named, sent, given⟩ := sendToLibrary_eq reader text signal
      { request with
        kind := kind, format := format, arguments := arguments
        function := Call.functionName text request.delimiter }
    refine yields_pure ⟨chosen, named, _, _, sent, ?_⟩
    rcases given with rfl | given
    · exact offers
    · exact given

/-- The path of a file goes to the reader of its format. -/
theorem yields_readPath (text : Text) (request : Request) :
    (reader.readPath text request).Yields fun read =>
      ∃ kind format pulse pass passName path file, read = { request with
          kind := kind, format := format, pulse := pulse, pass := pass, passName := passName
          path := path, file := file } ∧
        reader.registry.Offers kind := by
  rw [readPath]
  split
  · exact yields_refuse _ _
  · next found given =>
    obtain ⟨format, -, registered⟩ := Option.bind_eq_some_iff.mp given
    obtain ⟨kind, path, pulse, pass, passName, same⟩ := pulseInPath_eq text request
    rw [atPath, same]
    exact yields_pure ⟨_, _, _, _, _, _, _, rfl, Registry.offers_of_byFormat? registered⟩

/-- A source without a format leaves the signal alone and gives the request a kind. -/
theorem yields_readPlain (text signal : Text) (request : Request) :
    (reader.readPlain text signal request).Yields fun read =>
      ∃ kind format pulse pass passName device path file function arguments, read = { request with
          kind := kind, format := format, pulse := pulse, pass := pass, passName := passName
          device := device, path := path, file := file, function := function
          arguments := arguments } ∧
        reader.registry.Offers kind := by
  rw [readPlain]
  split
  · next found _ =>
    obtain ⟨pulse, pass, passName, same⟩ :=
      atPulse_eq { request with device := reader.configuration.device } found
    exact yields_pure ⟨_, _, _, _, _, _, _, _, _, _, same, .generic⟩
  · split
    · refine (yields_readCall text signal _).mono ?_
      rintro read ⟨kind, format, function, arguments, rfl, offers⟩
      exact ⟨_, _, _, _, _, _, _, _, _, _, rfl, offers⟩
    · split
      · exact yields_refuse _ _
      · refine (yields_readPath text _).mono ?_
        rintro read ⟨kind, format, pulse, pass, passName, path, file, rfl, offers⟩
        exact ⟨_, _, _, _, _, _, _, _, _, _, rfl, offers⟩

/-- What a source behind a name can turn out to be. -/
inductive NamedBy (reader : RequestReader) (name text : Text) (request : Request) : Named → Prop where
  /-- Nothing of that name is registered. -/
  | foreign (absent : reader.registry.byFormat? name = none) :
    NamedBy reader name text request
      (.foreign { request with device := name, kind := .generic })
  /-- A device stands for another source. -/
  | redirect {found : Reader} (given : reader.registry.byFormat? name = some found)
    (device : found.readerClass = .device) :
    NamedBy reader name text request (.redirect (found.redirect request.delimiter text))
  /-- A reader of files is sent the name of one. -/
  | file {found : Reader} (given : reader.registry.byFormat? name = some found)
    (file : found.readerClass = .file) :
    NamedBy reader name text request <|
      .known
        { request with
          kind := found.kind, format := found.format, device := reader.configuration.device
          path := [], file := text.trim.lastElement }
        false
  /-- Any other reader is sent the text as a path. -/
  | placed {found : Reader} {isServer : Bool} {function : Text} {arguments : List Argument}
    (given : reader.registry.byFormat? name = some found) (device : found.readerClass ≠ .device)
    (file : found.readerClass ≠ .file) :
    NamedBy reader name text request <|
      .known
        { request with
          kind := found.kind, format := found.format, device := reader.configuration.device
          path := text, file := [], function := function, arguments := arguments }
        isServer

/-- What a source behind a name turns out to be is decided by the class of the reader that the name
stands for. -/
theorem yields_readNamed (name text : Text) (request : Request) :
    (reader.readNamed name text request).Yields (reader.NamedBy name text request) := by
  rw [readNamed]
  split
  · next absent => exact yields_pure (.foreign absent)
  · next found given =>
    cases sort : found.readerClass with
    | device => exact yields_pure (.redirect given sort)
    | file => exact yields_pure (.file given sort)
    | server => exact yields_pure (.placed given (by simp [sort]) (by simp [sort]))
    | library => exact yields_pure (.placed given (by simp [sort]) (by simp [sort]))
    | function =>
      dsimp only
      split
      · split
        · exact yields_refuse _ _
        · refine Yields.behind fun arguments => ?_
          exact yields_pure (.placed given (by simp [sort]) (by simp [sort]))
      · exact yields_refuse _ _

/-! ## The signal -/

/-- Taking the subset off a signal writes what was taken, or nothing. -/
theorem yields_readSubset (request : Request) :
    (readSubset request).Yields fun taken =>
      taken = request ∨ ∃ found, Subset.extract request.signal = .ok (some found) ∧
        taken = { request with
          signal := found.signal, subsetText := found.text, subset := found.subset } := by
  have extracted : (ofResult "extract_subset" (Subset.extract request.signal)).Yields
      fun taken => Subset.extract request.signal = .ok taken :=
    yields_ofResult _ fun _ given => given
  refine extracted.bind fun taken given => ?_
  cases taken with
  | none => exact yields_pure (.inl rfl)
  | some found => exact yields_pure (.inr ⟨found, given, rfl⟩)

/-- Taking the archive off a signal writes both. No archive is left empty unless the default one
is. -/
theorem yields_readArchive (reduce : Bool) (request : Request) :
    (reader.readArchive reduce request).Yields fun archived => ∃ archive signal,
      archived = { request with archive := archive, signal := signal } ∧
        (archive = [] → reader.configuration.archive = []) := by
  refine Yields.behind fun _ => ?_
  split
  · exact yields_pure ⟨_, _, rfl, id⟩
  · next given =>
    exact yields_pure ⟨_, _, rfl, fun empty => absurd (List.isEmpty_iff.mpr empty) given⟩

/-- The call of a signal writes its function, and its arguments behind those of the source. -/
theorem yields_readSignalCall (permitted : Bool) (request : Request) :
    (readSignalCall permitted request).Yields fun called => ∃ arguments function,
      called.1 = { request with arguments := arguments, function := function } := by
  rw [readSignalCall]
  split
  · exact yields_pure ⟨_, _, rfl⟩
  · split
    · exact yields_pure ⟨_, _, rfl⟩
    · exact Yields.behind fun _ => yields_pure ⟨_, _, rfl⟩

/-- Where the source leaves the choice to the signal, the request is sent to a reader that the
registry offers. -/
theorem resolveSignal_eq (reader : RequestReader) (isCall : Bool) (request : Request) :
    ∃ kind format function, reader.resolveSignal isCall request =
        { request with kind := kind, format := format, function := function } ∧
      reader.registry.Offers kind := by
  rw [resolveSignal]
  split
  · exact ⟨_, _, _, rfl, .generic⟩
  · dsimp only
    split
    · next library given =>
      have named := Option.eq_some_of_filter_eq_some given
      exact ⟨_, _, _, rfl, Registry.offers_of_byFormat? named⟩
    · split
      · next default given => exact ⟨_, _, _, rfl, Registry.offers_of_serverSide? given⟩
      · refine ⟨_, _, _, rfl, ?_⟩
        cases named : reader.registry.byFormat? request.archive with
        | none => exact .generic
        | some found => exact Registry.offers_of_byFormat? named

/-- Where it does not, the request may be sent to the library that the signal names. -/
theorem chooseLibrary_eq (reader : RequestReader) (request : Request) :
    ∃ kind format, reader.chooseLibrary request = { request with kind := kind, format := format } ∧
      (kind = request.kind ∨ reader.registry.Offers kind) := by
  rw [chooseLibrary]
  split
  · next library given =>
    split
    · have named := Option.eq_some_of_filter_eq_some given
      exact ⟨_, _, rfl, .inr (Registry.offers_of_byFormat? named)⟩
    · exact ⟨_, _, rfl, .inl rfl⟩
  · exact ⟨_, _, rfl, .inl rfl⟩

/-- Behind a source the signal chooses a kind and a format, or leaves both as they are. -/
theorem chooseReader_false_eq (reader : RequestReader) (isCall : Bool) (request : Request) :
    ∃ kind format, reader.chooseReader false isCall request =
        { request with kind := kind, format := format } ∧
      (kind = request.kind ∨ reader.registry.Offers kind) := by
  rw [chooseReader, if_neg Bool.false_ne_true]
  split
  · exact chooseLibrary_eq reader request
  · exact ⟨_, _, rfl, .inl rfl⟩

/-- The choice of a reader writes the kind and the format, and may drop the function. -/
theorem chooseReader_eq (reader : RequestReader) (noSource isCall : Bool) (request : Request) :
    ∃ kind format function, reader.chooseReader noSource isCall request =
        { request with kind := kind, format := format, function := function } ∧
      (noSource = false ∧ kind = request.kind ∨ reader.registry.Offers kind) := by
  cases noSource with
  | true =>
    obtain ⟨kind, format, function, chosen, offers⟩ := resolveSignal_eq reader isCall request
    exact ⟨kind, format, function, chosen, .inr offers⟩
  | false =>
    obtain ⟨kind, format, chosen, given⟩ := chooseReader_false_eq reader isCall request
    exact ⟨kind, format, _, chosen, given.imp_left fun same => ⟨rfl, same⟩⟩

/-- What the source decided stands. -/
theorem chooseReader_of_decided {isCall : Bool} {request : Request} (generic : request.kind ≠ .generic)
    (unknown : request.kind ≠ .unknown) : reader.chooseReader false isCall request = request := by
  rw [chooseReader, if_neg Bool.false_ne_true]
  split
  · rw [chooseLibrary]
    split
    · simp [generic, unknown]
    · rfl
  · rfl

/-- Behind a source, a signal writes its own parts, its archive and what it calls. The reader is left to
the signal only where the source has not decided it. -/
theorem yields_readSignal (isServer isForeign : Bool) (request : Request) :
    (reader.readSignal false isServer isForeign request).Yields fun read =>
      ∃ kind format archive signal subsetText subset arguments function, read = { request with
          kind := kind, format := format, archive := archive, signal := signal
          subsetText := subsetText, subset := subset, arguments := arguments, function := function } ∧
        (request.kind ≠ .generic → request.kind ≠ .unknown →
          kind = request.kind ∧ format = request.format) := by
  have taken : (readSubset request).Yields fun taken => ∃ signal subsetText subset,
      taken = { request with signal := signal, subsetText := subsetText, subset := subset } := by
    refine (yields_readSubset request).mono ?_
    rintro taken (rfl | ⟨found, -, rfl⟩)
    · exact ⟨_, _, _, rfl⟩
    · exact ⟨_, _, _, rfl⟩
  refine taken.bind ?_
  rintro _ ⟨signal, subsetText, subset, rfl⟩
  refine (yields_readArchive _ _).bind ?_
  rintro _ ⟨archive, rest, rfl, -⟩
  refine (yields_readSignalCall _ _).bind ?_
  rintro ⟨called, isCall⟩ ⟨arguments, function, rfl⟩
  obtain ⟨kind, format, chosen, -⟩ := chooseReader_false_eq reader isCall
    { request with
      archive := archive, signal := rest, subsetText := subsetText, subset := subset
      arguments := arguments, function := function }
  refine yields_pure ⟨kind, format, _, _, _, _, _, _, chosen, fun generic unknown => ?_⟩
  have kept := chosen.symm.trans (chooseReader_of_decided generic unknown)
  exact ⟨congrArg Request.kind kept, congrArg Request.format kept⟩

/-! ## The address -/

/-- An address behind the format of a server writes where the server reads. -/
theorem yields_readAddress (text : Text) (request : Request) :
    (readAddress text request).Yields fun read => ∃ server pulse path file,
      read = { request with server := server, pulse := pulse, path := path, file := file } := by
  rw [readAddress]
  split
  · refine yields_ofResult _ fun read given => ?_
    obtain ⟨server, pulse, file, rfl⟩ := Address.tree_eq given
    exact ⟨server, pulse, _, file, rfl⟩
  · obtain ⟨server, file, same⟩ := Address.remote_eq text request
    exact yields_pure ⟨server, _, _, file, same⟩
  · obtain ⟨server, file, same⟩ := Address.remote_eq text request
    exact yields_pure ⟨server, _, _, file, same⟩
  · obtain ⟨server, path, same⟩ := Address.database_eq request
    exact yields_pure ⟨server, _, path, _, same⟩
  · exact yields_pure ⟨_, _, _, _, rfl⟩

end RequestReader

end SignalAccess

import SignalAccess.Proofs.Request.Devices

/-!
# The source decides where to read

A source that leads to a registered reader, by name or by the path of a file, settles which reader is
taken and where it reads. The signal is read behind it and may bring an archive, a function and a
library of functions of its own, but a reader that is settled is not chosen again, and an address is
taken apart by what the source wrote. So two requests that differ in their signals go to the same
place. Only the two kinds that leave the choice open are excluded.

The two runs are followed side by side: what a step of the signal writes lies outside the place, and
what a step of the source writes depends on the place alone.
-/

namespace SignalAccess

open Recording

namespace Request

/-- Which reader a request goes to, and where that one reads. -/
structure Place where
  kind : RequestKind
  format : Text
  device : Text
  server : Text
  path : Text
  file : Text
  pulse : Int32
  pass : Int32
  passName : Text
  source : Text
  deriving DecidableEq, Repr

/-- The place of a request. -/
def place (request : Request) : Place where
  kind := request.kind
  format := request.format
  device := request.device
  server := request.server
  path := request.path
  file := request.file
  pulse := request.pulse
  pass := request.pass
  passName := request.passName
  source := request.source

/-- Two requests go to the same place. -/
def SamePlace (first second : Request) : Prop := first.place = second.place

end Request

/-- A kind of reader that leaves no choice to the signal. -/
structure RequestKind.Settled (kind : RequestKind) : Prop where
  generic : kind ≠ .generic
  unknown : kind ≠ .unknown

variable {text : Text} {first second : Request}

namespace Address

/-- An address of a tree leads two requests for one place to one place, or refuses both. -/
theorem place_tree (text : Text) (same : first.place = second.place) :
    (tree text first).map Request.place = (tree text second).map Request.place := by
  simp only [Request.place, Request.Place.mk.injEq] at same
  rcases tree_cases text with refused | ⟨server, sets⟩ | ⟨server, pulse, file, sets⟩
  · rw [refused, refused]
  · rw [sets, sets]
    simp [Except.map, Request.place, same]
  · rw [sets, sets]
    simp [Except.map, Request.place, same]

/-- Requests for the same place go to the same server, whatever they ask of it. -/
theorem place_remote (text : Text) (same : first.place = second.place) :
    (remote text first).place = (remote text second).place := by
  simp only [Request.place, Request.Place.mk.injEq] at same
  unfold remote
  split
  · split
    · simp [Request.place, same]
    · simp [Request.place, same]
  · split
    · simp [Request.place, same]
    · simp [Request.place, same]

/-- Requests for a database in the same place go to the same server. -/
theorem place_database (same : first.place = second.place) :
    (database first).place = (database second).place := by
  simp only [Request.place, Request.Place.mk.injEq] at same
  have path : first.path = second.path := by simp [same]
  unfold database
  rw [path]
  split
  · simp [Request.place, same]
  · simp [Request.place, same]

end Address

namespace RequestReader

variable {reader : RequestReader} {delimiter : Text} {found : Reader} {request : Request}

/-! ## The source -/

/-- The reader that a source without a device in front leads to: the one that it names, or that of the
file whose path it is. -/
def chosen? (reader : RequestReader) (delimiter source : Text) : Option Reader :=
  match lead reader.configuration delimiter source.trim with
  | .absent => none
  | .plain text =>
    if (Pulse.ofText? text).isSome || Call.isCall text then none else reader.fileReader? text
  | .named name _ => reader.registry.byFormat? name

/-- A pulse is put into a request whatever the signal is. -/
theorem atPulse_signal (signal : Text) (pulse : Pulse) :
    atPulse { request with signal := signal } pulse =
      { atPulse request pulse with signal := signal } := by
  unfold atPulse
  split
  · rfl
  · split
    · rfl
    · rfl

/-- The pulse in a path is taken without a look at the signal. -/
theorem pulseInPath_signal (signal : Text) :
    pulseInPath text { request with signal := signal } =
      { pulseInPath text request with signal := signal } := by
  unfold pulseInPath
  dsimp only
  split
  · cases Pulse.ofText? (text.drop 1) with
    | none => rfl
    | some pulse => exact atPulse_signal signal pulse
  · rfl

/-- The path of a file is taken without a look at the signal. -/
theorem atPath_signal (signal : Text) :
    reader.atPath found text { request with signal := signal } =
      { reader.atPath found text request with signal := signal } := by
  unfold atPath
  rw [pulseInPath_signal]
  rfl

/-- The path of a file with a known reader gives one place, whatever the signal is. -/
theorem place_of_readPlain (path : Pulse.ofText? text = none) (plain : Call.isCall text = false)
    (given : reader.fileReader? text = some found) (request : Request) :
    ∃ place : Request.Place, place.kind = found.kind ∧ ∀ signal,
      (reader.readPlain text signal { request with signal := signal }).Yields
        fun read => read.place = place := by
  let sited := { request with device := reader.configuration.device }
  refine ⟨(reader.atPath found text sited).place, rfl, fun signal => ?_⟩
  have sent : reader.atPath found text { sited with signal := signal } =
      { reader.atPath found text sited with signal := signal } := atPath_signal signal
  rw [readPlain, path]
  dsimp only
  rw [plain, if_neg Bool.false_ne_true]
  split
  · exact yields_refuse _ _
  · rw [readPath, given]
    refine yields_pure ?_
    show (reader.atPath found text { sited with signal := signal }).place = _
    rw [sent]
    rfl

/-- The place behind the name of a reader. -/
def placeBehind (reader : RequestReader) (found : Reader) (text : Text) (place : Request.Place) :
    Request.Place :=
  { place with
    kind := found.kind, format := found.format, device := reader.configuration.device
    path := if found.readerClass = .file then [] else text
    file := if found.readerClass = .file then text.trim.lastElement else [] }

/-- A registered reader that is no device is sent to behind its own name. -/
theorem place_of_readNamed {name : Text} (given : reader.registry.byFormat? name = some found)
    (direct : found.readerClass ≠ .device) :
    (reader.readNamed name text request).Yields fun named => ∃ sent isServer,
      named = .known sent isServer ∧ sent.place = reader.placeBehind found text request.place := by
  refine (yields_readNamed name text request).mono ?_
  intro named sort
  cases sort with
  | foreign absent =>
    rw [given] at absent
    cases absent
  | redirect registered device =>
    rw [given] at registered
    cases registered
    exact absurd device direct
  | file registered file =>
    rw [given] at registered
    cases registered
    exact ⟨_, _, rfl, by simp [placeBehind, Request.place, file]⟩
  | placed registered device file =>
    rw [given] at registered
    cases registered
    exact ⟨_, _, rfl, by simp [placeBehind, Request.place, file]⟩

/-! ## The signal -/

/-- Behind a source that has settled the reader, the signal changes nothing of the place. -/
theorem place_of_readSignal {isServer isForeign : Bool} (settled : request.kind.Settled) :
    (reader.readSignal false isServer isForeign request).Yields
      fun read => read.place = request.place := by
  refine (yields_readSignal isServer isForeign request).mono ?_
  rintro read ⟨kind, format, archive, signal, subsetText, subset, arguments, function, rfl, decided⟩
  obtain ⟨rfl, rfl⟩ := decided settled.generic settled.unknown
  rfl

/-! ## The address -/

/-- An address is taken apart in the same way at the same place. -/
theorem agree_readAddress (same : first.place = second.place) :
    Agree Request.SamePlace (readAddress text first) (readAddress text second) := by
  have kind : first.kind = second.kind := congrArg Request.Place.kind same
  unfold readAddress
  rw [kind]
  split
  · refine agree_ofResult _ fun read other given otherGiven => ?_
    have placed := Address.place_tree text same
    rw [given, otherGiven] at placed
    exact Except.ok.inj placed
  · exact agree_pure (Address.place_remote text same)
  · exact agree_pure (Address.place_remote text same)
  · exact agree_pure (Address.place_database same)
  · exact agree_pure same

/-! ## Both -/

/-- What is read of a source without a name in front. -/
theorem readSource_of_plain (unproxied : reader.configuration.proxy = none) {source : Text}
    (plain : lead reader.configuration delimiter source.trim = .plain text) (signal : Text)
    (follow : Text → Recording Request) :
    reader.readSource delimiter signal follow source =
      reader.readPlain text signal
        { Request.blank with source := source.trim, signal := signal, delimiter := delimiter } >>=
      reader.readSignal false false false := by
  simp [readSource, plain, unproxied]

/-- What is read of a source with another name in front. -/
theorem readSource_of_named (unproxied : reader.configuration.proxy = none) {source name : Text}
    (named : lead reader.configuration delimiter source.trim = .named name text) (signal : Text)
    (follow : Text → Recording Request) :
    reader.readSource delimiter signal follow source =
      reader.readNamed name text
        { Request.blank with source := source.trim, signal := signal, delimiter := delimiter } >>=
      reader.readBehind text follow := by
  simp [readSource, named, unproxied]

/-- The path of a file is read at one place, whatever the signals are. -/
theorem agree_readSource_of_plain (unproxied : reader.configuration.proxy = none) {source : Text}
    (plain : lead reader.configuration delimiter source.trim = .plain text)
    (path : Pulse.ofText? text = none) (call : Call.isCall text = false)
    (given : reader.fileReader? text = some found) (settled : found.kind.Settled)
    (signal other : Text) (follow otherwise : Text → Recording Request) :
    Agree Request.SamePlace (reader.readSource delimiter signal follow source)
      (reader.readSource delimiter other otherwise source) := by
  obtain ⟨place, kind, sited⟩ := place_of_readPlain path call given
    { Request.blank with source := source.trim, delimiter := delimiter }
  have read : ∀ signal follow, (reader.readSource delimiter signal follow source).Yields
      fun read => read.place = place := by
    intro signal follow
    rw [readSource_of_plain unproxied plain]
    refine (sited signal).bind fun sent same => ?_
    have chosen : sent.kind = found.kind := (congrArg Request.Place.kind same).trans kind
    rw [← chosen] at settled
    exact (place_of_readSignal settled).mono fun read kept => kept.trans same
  exact (read signal follow).agree (read other otherwise) fun _ _ here there => here.trans there.symm

/-- A source behind the name of a reader is read at one place, whatever the signals are. -/
theorem agree_readSource_of_named (unproxied : reader.configuration.proxy = none) {source name : Text}
    (named : lead reader.configuration delimiter source.trim = .named name text)
    (given : reader.registry.byFormat? name = some found) (direct : found.readerClass ≠ .device)
    (settled : found.kind.Settled) (signal other : Text)
    (follow otherwise : Text → Recording Request) :
    Agree Request.SamePlace (reader.readSource delimiter signal follow source)
      (reader.readSource delimiter other otherwise source) := by
  rw [readSource_of_named unproxied named, readSource_of_named unproxied named]
  refine ((place_of_readNamed given direct).agree (place_of_readNamed given direct)
    fun _ _ here there => And.intro here there).bind ?_
  rintro _ _ ⟨⟨sent, isServer, rfl, here⟩, otherSent, otherIsServer, rfl, there⟩
  have sentSettled : sent.kind.Settled := by
    rwa [show sent.kind = found.kind from congrArg Request.Place.kind here]
  have otherSettled : otherSent.kind.Settled := by
    rwa [show otherSent.kind = found.kind from congrArg Request.Place.kind there]
  have same : sent.place = otherSent.place := here.trans there.symm
  -- What the signals wrote lies outside the place, so the addresses are taken apart alike.
  refine ((place_of_readSignal sentSettled).agree (place_of_readSignal otherSettled)
    fun _ _ kept otherKept => ?_).bind fun _ _ placed => agree_readAddress placed
  exact kept.trans (same.trans otherKept.symm)

/-- A source without a device in front is read at one place, whatever the signals are. -/
theorem agree_readSource (unproxied : reader.configuration.proxy = none) {source : Text}
    (direct : reader.redirect? delimiter source = none)
    (chosen : reader.chosen? delimiter source = some found) (settled : found.kind.Settled)
    (signal other : Text) (follow otherwise : Text → Recording Request) :
    Agree Request.SamePlace (reader.readSource delimiter signal follow source)
      (reader.readSource delimiter other otherwise source) := by
  unfold chosen? at chosen
  split at chosen
  · cases chosen
  · next text plain =>
    split at chosen
    · cases chosen
    · next path =>
      obtain ⟨pulse, call⟩ : Pulse.ofText? text = none ∧ Call.isCall text = false := by
        simpa using path
      exact agree_readSource_of_plain unproxied plain pulse call chosen settled _ _ _ _
  · next name text named =>
    have sort : found.readerClass ≠ .device := by
      intro device
      simp [redirect?, named, chosen, device] at direct
    exact agree_readSource_of_named unproxied named chosen sort settled _ _ _ _

/-- Devices lead to the same source for both signals, by induction on the chain of sources. -/
theorem agree_readWithin (unproxied : reader.configuration.proxy = none) {substitutions : Nat}
    {source final : Text} (stands : reader.StandsFor delimiter substitutions source final)
    (chosen : reader.chosen? delimiter final = some found) (settled : found.kind.Settled)
    (signal other : Text) (sources : Nat) :
    Agree Request.SamePlace (reader.readWithin delimiter signal sources source)
      (reader.readWithin delimiter other sources source) := by
  induction stands generalizing sources with
  | itself direct =>
    cases sources with
    | zero => exact agree_refuse _ _ _
    | succ sources => exact agree_readSource unproxied direct chosen settled _ _ _ _
  | device redirected stands inductionHypothesis =>
    cases sources with
    | zero => exact agree_refuse _ _ _
    | succ sources =>
      unfold readWithin
      rw [readSource_of_redirect? unproxied redirected, readSource_of_redirect? unproxied redirected]
      exact inductionHypothesis chosen sources

/-- Without a proxy, requests whose source leads to a reader that leaves no choice open go to the same
place, whatever their signals are. -/
theorem place_eq_of_parse (reader : RequestReader) (unproxied : reader.configuration.proxy = none)
    (choice : Text) {source final : Text} {substitutions : Nat}
    (stands : reader.StandsFor (reader.configuration.delimiterOr choice) substitutions source final)
    {found : Reader}
    (chosen : reader.chosen? (reader.configuration.delimiterOr choice) final = some found)
    (generic : found.kind ≠ .generic) (unknown : found.kind ≠ .unknown) {signal other : Text}
    {log otherLog : FailureLog} {read otherRead : Request}
    (done : (reader.parse source signal choice log).1 = .ok read)
    (otherDone : (reader.parse source other choice otherLog).1 = .ok otherRead) :
    read.place = otherRead.place := by
  have agree := agree_readWithin unproxied stands chosen ⟨generic, unknown⟩ signal.trim other.trim
    (reader.configuration.maxRedirects + 1)
  exact agree.of_outcome done otherDone

/-- A device that stands for a directory of files, and a library of functions. -/
def tooled : RequestReader where
  configuration := .standard
  registry := Registry.standard.registerAll
    [deviceFor "NEAR" "NETCDF" "disk", Reader.plain "TOOLS".toList .unknown .function]
  machine := .bare

/-- A file behind a device is read at one place, also if the signal names a library of functions. -/
theorem place_eq_of_parse_tooled :
    let read := { Request.blank with
      kind := .netcdf, format := "NETCDF".toList, file := "run.nc".toList, signal := "ip".toList
      source := "NETCDF::disk/run.nc".toList, delimiter := "::".toList }
    let otherRead := { read with
      archive := "TOOLS".toList, function := "scale".toList, signal := "scale(factor=2)".toList
      arguments := [.ofParts "factor".toList "2".toList] }
    (tooled.parse "NEAR::run.nc".toList "ip".toList [] .empty).1 = .ok read ∧
      (tooled.parse "NEAR::run.nc".toList "TOOLS::scale(factor=2)".toList [] .empty).1 =
        .ok otherRead ∧
      read.place = otherRead.place := by
  intro read otherRead
  have near : tooled.redirect? "::".toList "NEAR::run.nc".toList =
      some "NETCDF::disk/run.nc".toList := by decide +kernel
  have file : tooled.redirect? "::".toList "NETCDF::disk/run.nc".toList = none := by
    decide +kernel
  have netcdf : tooled.chosen? "::".toList "NETCDF::disk/run.nc".toList =
      some { Reader.plain "NETCDF".toList .netcdf .file with extension := "nc".toList } := by
    decide +kernel
  have done : (tooled.parse "NEAR::run.nc".toList "ip".toList [] .empty).1 = .ok read := by
    decide +kernel
  have otherDone : (tooled.parse "NEAR::run.nc".toList "TOOLS::scale(factor=2)".toList []
      .empty).1 = .ok otherRead := by decide +kernel
  refine ⟨done, otherDone, ?_⟩
  exact place_eq_of_parse tooled rfl [] (.device near (.itself file)) netcdf (by decide) (by decide)
    done otherDone

end RequestReader

end SignalAccess

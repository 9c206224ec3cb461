import SignalAccess.Proofs.Request.CallForms
import SignalAccess.Proofs.Text.Trim

/-!
# The default device in front of a source

A source may name the default device in front of what it asks for. The device is taken off, and what is
left is read as if it stood alone: by its name, as a pulse, a call or a path, and through any device that
it leads to in its turn.

The source as it was written is kept in the request, but no step reads it there. So each step gives the
same whether the source is kept or erased before it, and the two requests differ in nothing else.
-/

namespace SignalAccess

open Recording

namespace Request

/-- A request without the source that it was read from. -/
def unsourced (request : Request) : Request := { request with source := [] }

/-- The kind of reader does not depend on the source that is written down. -/
@[simp] theorem unsourced_kind (request : Request) : request.unsourced.kind = request.kind := rfl

/-- The archive does not depend on the source that is written down. -/
@[simp] theorem unsourced_archive (request : Request) :
    request.unsourced.archive = request.archive := rfl

/-- The signal does not depend on the source that is written down. -/
@[simp] theorem unsourced_signal (request : Request) : request.unsourced.signal = request.signal := rfl

/-- The path does not depend on the source that is written down. -/
@[simp] theorem unsourced_path (request : Request) : request.unsourced.path = request.path := rfl

/-- The delimiter does not depend on the source that is written down. -/
@[simp] theorem unsourced_delimiter (request : Request) :
    request.unsourced.delimiter = request.delimiter := rfl

end Request

namespace RequestReader

variable {reader : RequestReader} {delimiter signal text : Text}

/-! ## Steps that do not read the source

A step on a request without its source gives what the step on the request gives, without its source. The
steps in the order in which a request is read: what a source is, what a signal adds, and the address. -/

/-- A pulse is taken without a look at the source that is written down. -/
theorem unsourced_atPulse (request : Request) (pulse : Pulse) :
    (atPulse request pulse).unsourced = atPulse request.unsourced pulse := by
  unfold atPulse
  split
  · rfl
  · split
    · rfl
    · rfl

/-- The pulse in a path is taken without a look at the source that is written down. -/
theorem unsourced_pulseInPath (text : Text) (request : Request) :
    (pulseInPath text request).unsourced = pulseInPath text request.unsourced := by
  unfold pulseInPath
  dsimp only
  split
  · cases Pulse.ofText? (text.drop 1) with
    | none => rfl
    | some pulse => exact unsourced_atPulse request pulse
  · rfl

/-- The path of a file is taken without a look at the source that is written down. -/
theorem unsourced_atPath (found : Reader) (text : Text) (request : Request) :
    (reader.atPath found text request).unsourced = reader.atPath found text request.unsourced := by
  unfold atPath
  rw [← unsourced_pulseInPath]
  rfl

/-- A request goes to the server's own library whatever source is written down. -/
theorem unsourced_sendToServerSide (request : Request) :
    (reader.sendToServerSide request).unsourced = reader.sendToServerSide request.unsourced := by
  unfold sendToServerSide
  split
  · rfl
  · rfl

/-- A request goes to the library that its call names whatever source is written down. -/
theorem unsourced_sendToLibrary (text signal : Text) (request : Request) :
    (reader.sendToLibrary text signal request).unsourced =
      reader.sendToLibrary text signal request.unsourced := by
  unfold sendToLibrary
  rw [Request.unsourced_delimiter]
  dsimp only
  split
  · rfl
  · rfl

/-- A call is read without a look at the source that is written down. -/
theorem unsourced_readCall (text signal : Text) (request : Request) :
    Request.unsourced <$> reader.readCall text signal request =
      reader.readCall text signal request.unsourced := by
  unfold readCall
  split
  · rfl
  · rw [map_bind]
    refine bind_congr fun arguments => ?_
    rw [map_pure, unsourced_sendToLibrary, ← unsourced_sendToServerSide]
    rfl

/-- A path is read without a look at the source that is written down. -/
theorem unsourced_readPath (text : Text) (request : Request) :
    Request.unsourced <$> reader.readPath text request = reader.readPath text request.unsourced := by
  unfold readPath
  split
  · rfl
  · rw [map_pure, unsourced_atPath]

/-- A text without a format in front is read without a look at the source that is written down. -/
theorem unsourced_readPlain (text signal : Text) (request : Request) :
    Request.unsourced <$> reader.readPlain text signal request =
      reader.readPlain text signal request.unsourced := by
  unfold readPlain
  dsimp only
  split
  · rw [map_pure, unsourced_atPulse]
    rfl
  · split
    · exact unsourced_readCall text signal _
    · split
      · rfl
      · exact unsourced_readPath text _

/-- What a source behind a name turned out to be, without the source. -/
def Named.unsourced : Named → Named
  | .known request isServer => .known request.unsourced isServer
  | .foreign request => .foreign request.unsourced
  | .redirect source => .redirect source

/-- A text behind a name is read without a look at the source that is written down. -/
theorem unsourced_readNamed (name text : Text) (request : Request) :
    Named.unsourced <$> reader.readNamed name text request =
      reader.readNamed name text request.unsourced := by
  unfold readNamed
  dsimp only
  split
  · rfl
  · split
    · rfl
    · rfl
    · rfl
    · rfl
    · split
      · split
        · rfl
        · rw [map_bind]
          exact bind_congr fun arguments => rfl
      · rfl

/-- The subset of a signal is read without a look at the source that is written down. -/
theorem unsourced_readSubset (request : Request) :
    Request.unsourced <$> readSubset request = readSubset request.unsourced := by
  unfold readSubset
  rw [map_bind]
  refine bind_congr fun found => ?_
  cases found with
  | none => rfl
  | some found => rfl

/-- The archive of a signal is read without a look at the source that is written down. -/
theorem unsourced_readArchive (reduce : Bool) (request : Request) :
    Request.unsourced <$> reader.readArchive reduce request =
      reader.readArchive reduce request.unsourced := by
  unfold readArchive
  dsimp only
  rw [map_bind]
  refine bind_congr fun _ => ?_
  exact apply_ite (Request.unsourced <$> ·) _ _ _

/-- A call in a signal is read without a look at the source that is written down. -/
theorem unsourced_readSignalCall (permitted : Bool) (request : Request) :
    (Prod.map Request.unsourced id) <$> readSignalCall permitted request =
      readSignalCall permitted request.unsourced := by
  unfold readSignalCall
  dsimp only
  split
  · rfl
  · rw [Request.unsourced_signal]
    split
    · rfl
    · rw [map_bind]
      exact bind_congr fun arguments => rfl

/-- The signal chooses a reader without a look at the source that is written down. -/
theorem unsourced_resolveSignal (isCall : Bool) (request : Request) :
    (reader.resolveSignal isCall request).unsourced =
      reader.resolveSignal isCall request.unsourced := by
  unfold resolveSignal
  rw [Request.unsourced_archive]
  dsimp only
  split
  · rfl
  · split
    · rfl
    · split
      · rfl
      · rfl

/-- A library is chosen by the call of a signal without a look at the source that is written
down. -/
theorem unsourced_chooseLibrary (request : Request) :
    (reader.chooseLibrary request).unsourced = reader.chooseLibrary request.unsourced := by
  unfold chooseLibrary
  rw [Request.unsourced_archive]
  split
  · exact apply_ite Request.unsourced _ _ _
  · rfl

/-- A reader is chosen by the signal as a whole without a look at the source that is written
down. -/
theorem unsourced_chooseReader (noSource isCall : Bool) (request : Request) :
    (reader.chooseReader noSource isCall request).unsourced =
      reader.chooseReader noSource isCall request.unsourced := by
  unfold chooseReader
  split
  · exact unsourced_resolveSignal isCall request
  · have inside : reader.isInDefault request.unsourced = reader.isInDefault request := rfl
    rw [inside]
    split
    · exact unsourced_chooseLibrary request
    · rfl

/-- A signal is read without a look at the source that is written down. -/
theorem unsourced_readSignal (noSource isServer isForeign : Bool) (request : Request) :
    Request.unsourced <$> reader.readSignal noSource isServer isForeign request =
      reader.readSignal noSource isServer isForeign request.unsourced := by
  unfold readSignal
  refine map_bind_of_map (unsourced_readSubset request) fun taken => ?_
  refine map_bind_of_map (unsourced_readArchive _ taken) fun archived => ?_
  refine map_bind_of_map (unsourced_readSignalCall _ archived) fun (called, isCall) => ?_
  rw [map_pure, unsourced_chooseReader]
  rfl

/-- The source of a request plays no part in an address of a tree. -/
theorem unsourced_tree (text : Text) (request : Request) :
    (Address.tree text request).map Request.unsourced = Address.tree text request.unsourced := by
  rcases Address.tree_cases text with refused | ⟨server, sets⟩ | ⟨server, pulse, file, sets⟩
  · rw [refused, refused]
    rfl
  · rw [sets, sets]
    rfl
  · rw [sets, sets]
    rfl

/-- The source of a request plays no part in an address on another server. -/
theorem unsourced_remote (text : Text) (request : Request) :
    (Address.remote text request).unsourced = Address.remote text request.unsourced := by
  unfold Address.remote
  split
  · split
    · rfl
    · rfl
  · split
    · rfl
    · rfl

/-- The source of a request plays no part in the place of a database. -/
theorem unsourced_database (request : Request) :
    (Address.database request).unsourced = Address.database request.unsourced := by
  unfold Address.database
  rw [Request.unsourced_path]
  split
  · rfl
  · rfl

/-- The source of a request plays no part in the address of any kind of reader. -/
theorem unsourced_readAddress (text : Text) (request : Request) :
    Request.unsourced <$> readAddress text request = readAddress text request.unsourced := by
  unfold readAddress
  rw [Request.unsourced_kind]
  split
  · rw [map_ofResult, unsourced_tree]
  · rw [map_pure, unsourced_remote]
  · rw [map_pure, unsourced_remote]
  · rw [map_pure, unsourced_database]
  · rfl

/-- The source of a request plays no part in what stands behind a name, if it plays none in the
sources that it redirects to. -/
theorem unsourced_readBehind (text : Text) (redirected : Text → Recording Request) (named : Named) :
    Request.unsourced <$> reader.readBehind text redirected named =
      reader.readBehind text (fun source => Request.unsourced <$> redirected source)
        named.unsourced := by
  cases named with
  | known request isServer =>
    exact map_bind_of_map (unsourced_readSignal _ _ _ request) (unsourced_readAddress text)
  | foreign request =>
    exact map_bind_of_map (unsourced_readSignal _ _ _ request) (unsourced_readAddress text)
  | redirect source => rfl

/-! ## What is read of a source -/

/-- Two sources that come to the same lead are read alike, but for the source that is kept. -/
theorem unsourced_readSource_congr {source other : Text}
    (same : lead reader.configuration delimiter source.trim =
      lead reader.configuration delimiter other.trim) (redirected : Text → Recording Request) :
    Request.unsourced <$> reader.readSource delimiter signal redirected source =
      Request.unsourced <$> reader.readSource delimiter signal redirected other := by
  unfold readSource
  dsimp only
  rw [same]
  split
  · rfl
  · split
    · rfl
    · split
      -- Without their sources the two requests that are started with are one and the same.
      case h_1 =>
        rw [unsourced_readSignal, unsourced_readSignal]
        rfl
      case h_2 text plain =>
        rw [map_bind_of_map (unsourced_readPlain text signal _) (unsourced_readSignal _ _ _),
          map_bind_of_map (unsourced_readPlain text signal _) (unsourced_readSignal _ _ _)]
        rfl
      case h_3 name text named =>
        rw [map_bind_of_map (unsourced_readNamed name text _) (unsourced_readBehind text _),
          map_bind_of_map (unsourced_readNamed name text _) (unsourced_readBehind text _)]
        rfl

/-! ## The device in front -/

/-- A default device that can stand in front of a source, with a delimiter between the two. The source
is something of its own, and does not start with the device already. -/
structure Precedes (device delimiter source : Text) : Prop where
  deviceTrimmed : Text.trim device = device
  delimiterTrimmed : Text.trim delimiter = delimiter
  sourceTrimmed : Text.trim source = source
  given : source ≠ []
  other : Text.equalIgnoringCase source device = false
  apart : Text.afterIgnoringCase? source (device ++ delimiter) = none

instance decidablePrecedes {device delimiter source : Text} :
    Decidable (Precedes device delimiter source) :=
  decidable_of_iff
    (Text.trim device = device ∧ Text.trim delimiter = delimiter ∧ Text.trim source = source ∧
      source ≠ [] ∧ Text.equalIgnoringCase source device = false ∧
      Text.afterIgnoringCase? source (device ++ delimiter) = none)
    ⟨fun ⟨deviceTrimmed, delimiterTrimmed, sourceTrimmed, given, other, apart⟩ =>
        ⟨deviceTrimmed, delimiterTrimmed, sourceTrimmed, given, other, apart⟩,
      fun ⟨deviceTrimmed, delimiterTrimmed, sourceTrimmed, given, other, apart⟩ =>
        ⟨deviceTrimmed, delimiterTrimmed, sourceTrimmed, given, other, apart⟩⟩

/-- The device is taken off, and leaves the lead that the source has alone. -/
theorem lead_append {configuration : Configuration} {source : Text}
    (precedes : Precedes configuration.device delimiter source) :
    lead configuration delimiter (configuration.device ++ delimiter ++ source) =
      lead configuration delimiter source := by
  have started : Text.afterIgnoringCase? (configuration.device ++ delimiter ++ source)
      (configuration.device ++ delimiter) = some source := Text.afterIgnoringCase?_append _ source
  have alone : isNoSource configuration.device delimiter source = false := by
    simp [isNoSource, precedes.given, precedes.other, not_equal_of_apart precedes.apart]
  have behind : isNoSource configuration.device delimiter
      (configuration.device ++ delimiter ++ source) = false := by
    have whole := Text.equalIgnoringCase_append (configuration.device ++ delimiter) precedes.given
    have part : Text.equalIgnoringCase (configuration.device ++ delimiter ++ source)
        configuration.device = false := by
      rw [List.append_assoc]
      exact Text.equalIgnoringCase_append _ (by simp [precedes.given])
    rw [isNoSource, whole, part]
    simp [precedes.given]
  simp only [lead, alone, behind, started, precedes.apart,
    Text.trimStart_of_trim_eq precedes.sourceTrimmed]

/-- With a device in front or without it, a source is read alike, whatever its signal is. -/
theorem unsourced_read_append (signal choice : Text) {source : Text}
    (precedes : Precedes reader.configuration.device (reader.configuration.delimiterOr choice) source) :
    Request.unsourced <$> reader.read (reader.configuration.device ++
        reader.configuration.delimiterOr choice ++ source) signal choice =
      Request.unsourced <$> reader.read source signal choice := by
  have trimmed : Text.trim (reader.configuration.device ++ reader.configuration.delimiterOr choice ++
      source) = reader.configuration.device ++ reader.configuration.delimiterOr choice ++ source :=
    Text.trim_append (Text.trim_append precedes.deviceTrimmed precedes.delimiterTrimmed)
      precedes.sourceTrimmed
  refine unsourced_readSource_congr ?_ _
  rw [trimmed, precedes.sourceTrimmed]
  exact lead_append precedes

/-- A source and the same source behind the default device come to the same: to the same failure, or to
requests that differ in nothing but the source that they keep; and they leave the same log. -/
theorem parse_behind_device (reader : RequestReader) (signal choice : Text) {source : Text}
    (precedes : Precedes reader.configuration.device (reader.configuration.delimiterOr choice) source)
    (log : FailureLog) :
    let behind := reader.parse (reader.configuration.device ++
      reader.configuration.delimiterOr choice ++ source) signal choice log
    let alone := reader.parse source signal choice log
    behind.1.map Request.unsourced = alone.1.map Request.unsourced ∧ behind.2 = alone.2 := by
  intro behind alone
  have same := congrArg (outcome · log) (unsourced_read_append signal choice precedes)
  rw [outcome_map, outcome_map] at same
  exact Prod.mk.inj same

/-- An installation whose default device is `MAST`, with a device that stands for a directory. -/
def besideMast : RequestReader where
  configuration := { Configuration.standard with device := "MAST".toList }
  registry := Registry.standard.registerAll [deviceFor "NEAR" "NETCDF" "disk"]
  machine := .bare

/-- A file behind another device, and a path that is refused. -/
theorem parse_behind_device_besideMast :
    let file := { Request.blank with
      kind := .netcdf, format := "NETCDF".toList, device := "MAST".toList, file := "run.nc".toList
      signal := "ip".toList, delimiter := "::".toList }
    let refusal := Failure.syntaxError .pathWithParentheses
    Precedes "MAST".toList "::".toList "NEAR::run.nc".toList ∧
      Precedes "MAST".toList "::".toList "shots/run(1).nc".toList ∧
      (besideMast.parse "NEAR::run.nc".toList "ip".toList [] .empty).1.map Request.unsourced =
        .ok file ∧
      (besideMast.parse "MAST::NEAR::run.nc".toList "ip".toList [] .empty).1.map Request.unsourced =
        .ok file ∧
      besideMast.parse "shots/run(1).nc".toList "ip".toList [] .empty =
        (.error refusal, FailureLog.empty.record mainStep.toList refusal) ∧
      (besideMast.parse "MAST::shots/run(1).nc".toList "ip".toList [] .empty).2 =
        FailureLog.empty.record mainStep.toList refusal := by
  intro file refusal
  have near : Precedes "MAST".toList "::".toList "NEAR::run.nc".toList := by decide +kernel
  have path : Precedes "MAST".toList "::".toList "shots/run(1).nc".toList := by decide +kernel
  have read : (besideMast.parse "NEAR::run.nc".toList "ip".toList [] .empty).1.map
      Request.unsourced = .ok file := by decide +kernel
  have refused : besideMast.parse "shots/run(1).nc".toList "ip".toList [] .empty =
      (.error refusal, FailureLog.empty.record mainStep.toList refusal) := by decide +kernel
  have readBehind := (parse_behind_device besideMast "ip".toList [] near .empty).1
  have refusedBehind := (parse_behind_device besideMast "ip".toList [] path .empty).2
  exact ⟨near, path, read, readBehind.trans read, refused,
    refusedBehind.trans (congrArg Prod.snd refused)⟩

end RequestReader

end SignalAccess

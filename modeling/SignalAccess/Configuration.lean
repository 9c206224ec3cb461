import SignalAccess.Failure.Basic
import SignalAccess.Json.Parser
/-!
# Configuration

The defaults of an installation, fixed while requests are handled. A document gives any of them;
those that it leaves out keep their values.
-/
namespace SignalAccess

/-- The defaults of an installation. -/
structure Configuration where
  /-- What separates a device, format or archive from the text behind it. -/
  delimiter : Text
  /-- The default device, which a source may name without effect. -/
  device : Text
  /-- The default archive. -/
  archive : Text
  /-- The format of paths that start with a pulse number. -/
  format : Text
  /-- The directory that is shared over the network. -/
  scratchName : Text
  /-- The network under which the shared directory is known. -/
  networkName : Text
  /-- The host under which the shared directory is known. -/
  hostName : Option Text
  /-- The targets of the path rules, as a list in one text. -/
  ruleTargets : Text
  /-- The substitutes of the path rules, as a list in one text. -/
  ruleSubstitutes : Text
  /-- The server to which every request is forwarded. -/
  proxy : Option Text
  /-- Whether paths are expanded for a client, which sees symbolic links. -/
  clientSide : Bool
  /-- The command that accepts the files of the newer netCDF format. -/
  netcdfCommand : Option Text
  /-- The command that accepts the files of the older IDA format. -/
  idaCommand : Option Text
  /-- How often a device may stand for another source. -/
  maxRedirects : Nat
  deriving DecidableEq, Repr

namespace Configuration

/-- The configuration of an installation that sets nothing. -/
def standard : Configuration where
  delimiter := "::".toList
  device := []
  archive := []
  format := []
  scratchName := "scratch".toList
  networkName := []
  hostName := none
  ruleTargets := []
  ruleSubstitutes := []
  proxy := none
  clientSide := true
  netcdfCommand := none
  idaCommand := none
  maxRedirects := 10

/-- The names of the settings in a document. -/
def names : List String :=
  ["api_delim", "api_device", "api_archive", "api_format", "scratch_name", "net_name", "host_name",
    "private_path_target", "private_path_substitute", "proxy_target", "client_side",
    "netcdf_dump_command", "ida_dump_command", "max_redirects"]

/-- The configuration that a JSON value sets. -/
def ofJson? (json : Json) : Option Configuration := do
  let fields ← json.record? names
  let text (name : String) (absent : Text) := Json.fieldOr fields name absent Json.text?
  let optional (name : String) := Json.fieldOr fields name none (Json.optional? Json.text?)
  some
    { delimiter := ← text "api_delim" standard.delimiter
      device := ← text "api_device" standard.device
      archive := ← text "api_archive" standard.archive
      format := ← text "api_format" standard.format
      scratchName := ← text "scratch_name" standard.scratchName
      networkName := ← text "net_name" standard.networkName
      hostName := ← optional "host_name"
      ruleTargets := ← text "private_path_target" standard.ruleTargets
      ruleSubstitutes := ← text "private_path_substitute" standard.ruleSubstitutes
      proxy := ← optional "proxy_target"
      clientSide := ← Json.fieldOr fields "client_side" standard.clientSide Json.bool?
      netcdfCommand := ← optional "netcdf_dump_command"
      idaCommand := ← optional "ida_dump_command"
      maxRedirects :=
        ← Json.fieldOr fields "max_redirects" standard.maxRedirects (Json.natural? 64) }

/-- The configuration that a JSON document sets. -/
def ofDocument (document : Text) : Except Failure Configuration :=
  match (Json.parse? document).bind ofJson? with
  | some configuration => .ok configuration
  | none => .error (.json "not a configuration".toList)

/-- The delimiter of a request: the client's choice, or the default. -/
def delimiterOr (configuration : Configuration) (choice : Text) : Text :=
  if choice.isEmpty then configuration.delimiter else choice

/-- How a path in the shared directory starts. -/
def scratchLead (configuration : Configuration) : Text :=
  '/' :: configuration.scratchName ++ ['/']

end Configuration

end SignalAccess

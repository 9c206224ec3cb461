import SignalAccess.Configuration
import SignalAccess.Machine.Basic
import SignalAccess.Registry
/-!
# Formats of files

The format of a file follows from its extension, first by the readers of the registry and then by
common custom. A path that starts with a pulse number has the default format. A file without an
extension is judged by its first bytes, and by a command where these do not decide.
-/
namespace SignalAccess

namespace FileFormat

/-- The text behind the last point of a file's name. -/
def extensionOf (path : Text) : Text :=
  match path.lastElement.breakAtLast '.' with
  | some (_, extension) => extension
  | none => []

/-- The format that an extension has by custom. Two digits are a file of the pulse archive. -/
def customary? (extension : Text) : Option Text :=
  let extension := extension.map Char.toLower
  if extension.length = 2 && extension.all Char.isDigit then some "IDA3".toList
  else if ["nc".toList, "cdf".toList].contains extension then some "NETCDF".toList
  else if ["hf".toList, "h5".toList, "hdf5".toList].contains extension then some "HDF5".toList
  else if extension = "xml".toList then some "XML".toList
  else if extension = "csv".toList then some "CSV".toList
  else none

/-- The number of bytes by which a file is judged. -/
def signatureLength : Nat := 10

/-- How classic netCDF files start. -/
def netcdfSignature : Bytes := [0x43, 0x44, 0x46]

/-- How HDF5 files start, and netCDF files of the newer kind as well. -/
def hdf5Signature : Bytes := [0x89, 0x48, 0x44, 0x46]

/-- Whether a command accepts a file; no command accepts none. -/
def acceptedBy (machine : Machine) (command : Option Text) (arguments : List Text) : Bool :=
  match command with
  | some line => machine.commandAccepts line arguments
  | none => false

/-- The format of a file by its first bytes. -/
def sniff? (configuration : Configuration) (machine : Machine) (path : Text) : Option Text :=
  match machine.contents path with
  | .error _ => none
  | .ok bytes =>
    let signature := bytes.take signatureLength
    if netcdfSignature.isPrefixOf signature then some "NETCDF".toList
    else if hdf5Signature.isPrefixOf signature then
      if acceptedBy machine configuration.netcdfCommand ["-h".toList, path] then
        some "NETCDF".toList
      else some "HDF5".toList
    else if acceptedBy machine configuration.idaCommand [path] then some "IDA".toList
    else none

/-- Whether a path starts with a pulse number. -/
def startsWithDigit : Text → Bool
  | '/' :: c :: _ => c.isDigit
  | _ => false

/-- The format of a file, if anything tells it. -/
def identify (configuration : Configuration) (registry : Registry) (machine : Machine)
    (path : Text) : Option Text :=
  if path.isEmpty || !path.isLegalPath then none
  else
    let extension := extensionOf path
    let byName :=
      ((registry.byExtension? extension).map (·.format)).orElse fun _ => customary? extension
    match byName with
    | some format => some format
    | none =>
      if startsWithDigit path && !configuration.format.isEmpty then some configuration.format
      else if extension.isEmpty then sniff? configuration machine path
      else none

end FileFormat

end SignalAccess

import SignalAccess.Failure.Basic
import SignalAccess.Json.Parser
import SignalAccess.Request.Kind
import SignalAccess.Text.Number
import SignalAccess.Text.Uppercase
/-!
# The registry of readers

Readers are kept in the order of their registration. A reader without a kind is given the next id
of the added kinds. Formats are found by their upper case; a later reader of the same format hides
the earlier one from this search, while both keep their places.
-/
namespace SignalAccess

/-- What a reader makes of the text behind its format. -/
inductive ReaderClass where
  /-- The name of a file. -/
  | file
  /-- An address on another data server. -/
  | server
  /-- A function call. -/
  | function
  /-- A data object of an archive. -/
  | library
  /-- An address behind a name that stands for another source. -/
  | device
  deriving DecidableEq, Repr

namespace ReaderClass

/-- The name of a class in documents. -/
def name : ReaderClass → String
  | .file => "file"
  | .server => "server"
  | .function => "function"
  | .library => "library"
  | .device => "device"

/-- Every class. -/
def all : List ReaderClass := [.file, .server, .function, .library, .device]

/-- The class with a name, if there is one. -/
def ofName? (name : String) : Option ReaderClass := all.find? (·.name == name)

end ReaderClass

/-- A reader of data objects. -/
structure Reader where
  /-- The name that selects the reader in front of a source. -/
  format : Text
  kind : RequestKind
  /-- The extension of the files that it reads, without the point; empty when there is none. -/
  extension : Text
  readerClass : ReaderClass
  /-- The format that a device stands for. -/
  protocol : Text
  /-- The host that a device stands for. -/
  host : Text
  /-- The number of the service on the host that a device stands for. -/
  service : Option UInt16
  description : Text
  deriving DecidableEq, Repr

namespace Reader

/-- A reader with neither an extension nor an address. -/
def plain (format : Text) (kind : RequestKind) (readerClass : ReaderClass) : Reader where
  format := format
  kind := kind
  extension := []
  readerClass := readerClass
  protocol := []
  host := []
  service := none
  description := []

/-- The start of the source that a device stands for. -/
def substitute (reader : Reader) (delimiter : Text) : Text :=
  let address := reader.protocol ++ delimiter ++ reader.host
  match reader.service with
  | some service => address ++ ':' :: Text.ofNat service.toNat
  | none => address

/-- The source that a device stands for, with the text that stood behind its name. -/
def redirect (reader : Reader) (delimiter text : Text) : Text :=
  let rest := text.trim
  if rest.isEmpty then reader.substitute delimiter else reader.substitute delimiter ++ '/' :: rest

/-- The kind that a JSON value names. -/
def kindOfJson? (json : Json) : Option RequestKind := do
  let (name, contents) ← json.choice?
  match RequestKind.ofName? (String.ofList name), contents with
  | some kind, none => some kind
  | some kind, some .null => some kind
  | none, some contents =>
    if name = "Plugin".toList then
      (contents.integer? Int32.minValue.toInt Int32.maxValue.toInt).map fun id =>
        .added (Int32.ofInt id)
    else none
  | _, _ => none

/-- The class that a JSON value names. -/
def classOfJson? (json : Json) : Option ReaderClass := do
  let (name, contents) ← json.choice?
  match contents with
  | none | some .null => ReaderClass.ofName? (String.ofList name)
  | _ => none

/-- The names of a reader's fields in a document. -/
def names : List String :=
  ["format", "request", "extension", "class", "device_protocol", "device_host", "device_port",
    "description"]

/-- The reader that a JSON value describes. -/
def ofJson? (json : Json) : Option Reader := do
  let fields ← json.record? names
  let text (name : String) := Json.fieldOr fields name [] Json.text?
  some
    { format := ← Json.field fields "format" Json.text?
      kind := ← Json.fieldOr fields "request" .unknown kindOfJson?
      extension := ← text "extension"
      readerClass := ← Json.field fields "class" classOfJson?
      protocol := ← text "device_protocol"
      host := ← text "device_host"
      service := (← Json.fieldOr fields "device_port" none (Json.optional? (Json.natural? 16))).map
        UInt16.ofNat
      description := ← text "description" }

end Reader

/-- The readers of an installation. -/
structure Registry where
  /-- Every reader, in the order of registration. -/
  readers : List Reader
  /-- The place of the latest reader of each format, by upper case, latest first. -/
  places : List (Text × Nat)
  /-- The id for the next reader without a kind. -/
  nextId : Int32
  deriving DecidableEq, Repr

namespace Registry

/-- The first id of the added kinds. -/
def firstAddedId : Int32 := 100

/-- The format of the server's own function library. -/
def serverSideFormat : Text := "SERVERSIDE".toList

/-- The registry without readers. -/
def empty : Registry := ⟨[], [], firstAddedId⟩

/-- The reader as the registry would keep it: with a kind. -/
def settled (registry : Registry) (reader : Reader) : Reader :=
  if reader.kind = .unknown then { reader with kind := .added registry.nextId } else reader

/-- The registry with one more reader. -/
def register (registry : Registry) (reader : Reader) : Registry where
  readers := registry.readers ++ [registry.settled reader]
  places := (reader.format.upper, registry.readers.length) :: registry.places
  nextId := if reader.kind = .unknown then registry.nextId + 1 else registry.nextId

/-- The registry with more readers, registered in order. -/
def registerAll (registry : Registry) (readers : List Reader) : Registry :=
  readers.foldl register registry

/-- The registry with one more reader of a class, for the files of an extension. -/
def registerFormat (registry : Registry) (format : Text) (readerClass : ReaderClass)
    (extension : Text) : Registry :=
  registry.register { Reader.plain format .unknown readerClass with extension := extension }

/-- The registry with one more name that stands for an address. -/
def registerDevice (registry : Registry) (name protocol host : Text) (service : Option UInt16) :
    Registry :=
  registry.register
    { Reader.plain name .unknown .device with
      protocol := protocol, host := host, service := service }

/-- The latest reader of a format, by upper case. -/
def byFormat? (registry : Registry) (format : Text) : Option Reader :=
  (registry.places.lookup format.upper).bind (registry.readers[·]?)

/-- The first reader of a kind. -/
def byKind? (registry : Registry) (kind : RequestKind) : Option Reader :=
  registry.readers.find? (·.kind == kind)

/-- The first reader of an extension, ASCII case aside. No reader has the empty extension. -/
def byExtension? (registry : Registry) (extension : Text) : Option Reader :=
  if extension.isEmpty then none
  else registry.readers.find? (·.extension.equalIgnoringCase extension)

/-- The reader for functions of the server's own library. -/
def serverSide? (registry : Registry) : Option Reader :=
  (registry.byKind? .serverSide).orElse fun _ => registry.byFormat? serverSideFormat

/-- The readers that every installation has. -/
def standardReaders : List Reader :=
  let file (format : String) (kind : RequestKind) (extension : String) : Reader :=
    { Reader.plain format.toList kind .file with extension := extension.toList }
  let server (format : String) (kind : RequestKind) : Reader :=
    Reader.plain format.toList kind .server
  [file "IDA" .ida "ida", file "NETCDF" .netcdf "nc", file "HDF5" .hdf5 "h5", file "XML" .xml "xml",
    file "UFILE" .ufile "", file "CSV" .unknown "csv", server "MDS" .mds, server "UDA" .forward,
    server "WEB" .web, server "SQL" .sql, server "PPF" .ppf, server "JPF" .jpf,
    server "HDATA" .hdata, server "NOTHING" .nothing,
    Reader.plain serverSideFormat .serverSide .function]

/-- The registry that every installation starts from. -/
def standard : Registry := empty.registerAll standardReaders

/-- The registry of the readers that a JSON document lists. A device must have a host. -/
def ofDocument (document : Text) : Except Failure Registry :=
  match (Json.parse? document).bind (Json.list? Reader.ofJson?) with
  | none => .error (.json "not a list of readers".toList)
  | some readers =>
    match readers.find? fun reader => reader.readerClass == .device && reader.host.isEmpty with
    | some reader => .error (.configuration (.deviceWithoutHost reader.format))
    | none => .ok (empty.registerAll readers)

end Registry

end SignalAccess

import SignalAccess.Text.Basic
/-!
# Kinds of requests

A request's kind says which reader it goes to. Built-in kinds have fixed ids; a reader that a
registry adds has an id of its own. Ids outside the built-in range name added readers, and negative
ids name nothing.
-/
namespace SignalAccess

/-- Which reader a request goes to. -/
inductive RequestKind where
  /-- Not decided. -/
  | unknown
  | generic
  | ida
  | mds
  | ppf
  | jpf
  | sql
  | netcdf
  | hdf5
  | xml
  | ufile
  | file
  | format
  | test
  | nothing
  /-- Forwarded to another data server. -/
  | forward
  | hdata
  /-- A function of the server's own library. -/
  | serverSide
  | web
  | xmlDefined
  /-- A reader that a registry added. -/
  | added (id : Int32)
  deriving DecidableEq, Repr

namespace RequestKind

/-- The id on the wire. -/
def id : RequestKind → Int32
  | .unknown => 0
  | .generic => 1
  | .ida => 2
  | .mds => 3
  | .ppf => 4
  | .jpf => 5
  | .sql => 6
  | .netcdf => 7
  | .hdf5 => 8
  | .xml => 9
  | .ufile => 10
  | .file => 11
  | .format => 12
  | .test => 13
  | .nothing => 14
  | .forward => 15
  | .hdata => 16
  | .serverSide => 17
  | .web => 18
  | .xmlDefined => 19
  | .added id => id

/-- The kinds that every library knows, in the order of their ids. -/
def builtIn : List RequestKind :=
  [.unknown, .generic, .ida, .mds, .ppf, .jpf, .sql, .netcdf, .hdf5, .xml, .ufile, .file, .format,
    .test, .nothing, .forward, .hdata, .serverSide, .web, .xmlDefined]

/-- The kind with an id. -/
def ofId (id : Int32) : RequestKind :=
  match builtIn.find? (·.id == id) with
  | some kind => kind
  | none => if id < 0 then .unknown else .added id

/-- Whether a request of this kind has a reader. -/
def isResolved (kind : RequestKind) : Bool := kind != .unknown

/-- The name of a kind in documents. An added kind is written with its id behind the name. -/
def name : RequestKind → String
  | .unknown => "Unknown"
  | .generic => "Generic"
  | .ida => "Ida"
  | .mds => "Mds"
  | .ppf => "Ppf"
  | .jpf => "Jpf"
  | .sql => "Sql"
  | .netcdf => "Cdf"
  | .hdf5 => "Hdf5"
  | .xml => "Xml"
  | .ufile => "UFile"
  | .file => "File"
  | .format => "Format"
  | .test => "Test"
  | .nothing => "Nothing"
  | .forward => "ReadUda"
  | .hdata => "ReadHData"
  | .serverSide => "ReadServerside"
  | .web => "ReadWeb"
  | .xmlDefined => "ReadXmlDefined"
  | .added _ => "Plugin"

/-- The built-in kind with a name, if there is one. -/
def ofName? (name : String) : Option RequestKind := builtIn.find? (·.name == name)

end RequestKind

end SignalAccess

import SignalAccess.Data.ElementType
/-!
# Versions

The two ends of a session may know different versions of the protocol; the lower one governs. Each
optional field and each element type has the version that introduced it, and this is the only place
that says so.
-/
namespace SignalAccess

/-- A version of the protocol. -/
abbrev Version := Int32

/-- A field that not every version has. -/
inductive GatedField where
  /-- The package of a data block. -/
  | package
  /-- The private flags of a client. -/
  | privateFlags
  /-- The flags of a client. -/
  | clientFlags
  /-- The source of a request and its delimiter. -/
  | requestSource
  /-- The system and the identifier that a client states. -/
  | clientSystem
  /-- The system and the identifier that a server states. -/
  | serverSystem
  /-- Whether a request writes. -/
  | requestPut
  /-- The number of requests of a block. -/
  | requestCount
  /-- The number of data blocks of a list. -/
  | blockCount
  deriving DecidableEq, Repr

namespace GatedField

/-- Every gated field, oldest first. -/
def all : List GatedField :=
  [.package, .privateFlags, .clientFlags, .requestSource, .clientSystem, .serverSystem,
    .requestPut, .requestCount, .blockCount]

/-- The version that introduced a field. -/
def since : GatedField → Version
  | .package => 3
  | .privateFlags => 5
  | .clientFlags | .requestSource => 6
  | .clientSystem | .serverSystem | .requestPut => 7
  | .requestCount | .blockCount => 8

end GatedField

/-- The version that introduced a type. -/
def ElementType.since : ElementType → Version
  | .flat .unsignedChar | .flat .unsignedShort | .flat .unsignedInt | .flat .unsignedLong
  | .flat .unsignedLong64 | .flat .complex | .flat .doubleComplex => 3
  | .compound => 4
  | .flat .string => 6
  | _ => 0

namespace Version

/-- The latest version. -/
def current : Version := 8

/-- Whether a field is on the wire. -/
def has (version : Version) (field : GatedField) : Bool := field.since ≤ version

/-- Whether a peer understands a type. -/
def knows (version : Version) (type : ElementType) : Bool := type.since ≤ version

/-- The version that governs two peers. -/
def negotiated (client server : Version) : Version := min client server

end Version

end SignalAccess

import SignalAccess.Request.Kind
import SignalAccess.Request.Slice
/-!
# Requests

What a client asks for, once its two texts are understood: the reader and what the reader needs to
find the data object. The first argument of a name counts, ASCII case aside.
-/
namespace SignalAccess

/-- An argument of a function call. -/
structure Argument where
  /-- The argument as it was written. -/
  source : Text
  name : Text
  value : Text
  deriving DecidableEq, Repr

/-- An argument written as its name, an equals sign and its value. -/
def Argument.ofParts (name value : Text) : Argument := ⟨name ++ '=' :: value, name, value⟩

/-- A request for a data object. -/
structure Request where
  kind : RequestKind
  /-- The number of the pulse, zero when there is none. -/
  pulse : Int32
  /-- The number of the pass, -1 for the latest. -/
  pass : Int32
  /-- A pass that is no number. -/
  passName : Text
  archive : Text
  device : Text
  server : Text
  path : Text
  file : Text
  format : Text
  function : Text
  /-- The data object. -/
  signal : Text
  /-- The selection as it was written. -/
  subsetText : Text
  source : Text
  delimiter : Text
  arguments : List Argument
  subset : Subset
  /-- Whether data are written instead of read. -/
  put : Bool
  deriving DecidableEq, Repr

namespace Request

/-- The request that asks for nothing yet. -/
def blank : Request where
  kind := .unknown
  pulse := 0
  pass := -1
  passName := []
  archive := []
  device := []
  server := []
  path := []
  file := []
  format := []
  function := []
  signal := []
  subsetText := []
  source := []
  delimiter := []
  arguments := []
  subset := .empty
  put := false

/-- The value of the first argument with a name, ASCII case aside. -/
def argument? (request : Request) (name : Text) : Option Text :=
  (request.arguments.find? fun argument => argument.name.equalIgnoringCase name).map (·.value)

end Request

end SignalAccess

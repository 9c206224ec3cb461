/-!
# Kinds of messages

What a frame can carry. The kind is the first field of its header.
-/
namespace SignalAccess

/-- What a frame carries. -/
inductive MessageKind where
  | clientState
  | serverState
  | requestBlock
  | blockList
  /-- The sender ends the exchange; there is no payload. -/
  | closedown
  deriving DecidableEq, Repr

namespace MessageKind

/-- The value in the header. -/
def code : MessageKind → UInt16
  | .clientState => 1
  | .serverState => 2
  | .requestBlock => 3
  | .blockList => 4
  | .closedown => 0xFFFF

/-- Every kind. -/
def all : List MessageKind := [.clientState, .serverState, .requestBlock, .blockList, .closedown]

/-- The kind with a header value, if the value is assigned. -/
def ofCode? (code : UInt16) : Option MessageKind := all.find? (·.code == code)

/-- The code of a kind leads back to the kind. -/
theorem ofCode?_code (kind : MessageKind) : ofCode? kind.code = some kind := by
  cases kind <;> rfl

/-- The name under which messages know the kind. -/
def name : MessageKind → String
  | .clientState => "ClientState"
  | .serverState => "ServerState"
  | .requestBlock => "RequestBlock"
  | .blockList => "DataBlockList"
  | .closedown => "Closedown"

end MessageKind

end SignalAccess

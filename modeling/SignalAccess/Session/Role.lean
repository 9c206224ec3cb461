/-!
# Roles

The two ends of a session. A frame says in which direction it travels, so each end knows which
frames can be meant for it.
-/
namespace SignalAccess

/-- An end of a session. -/
inductive Role where
  | client
  | server
  deriving DecidableEq, Repr

/-- The name under which messages know the role. -/
def Role.name : Role → String
  | .client => "Client"
  | .server => "Server"

end SignalAccess

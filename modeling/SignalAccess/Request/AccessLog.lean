import SignalAccess.Failure.Log
import SignalAccess.Request.Basic
import SignalAccess.Text.Number
/-!
# The access log

A finished request leaves one line for itself and one for each of its failures. The lines of a
request share the user and the date, and their first character tells the two sorts apart.
-/
namespace SignalAccess

namespace AccessLog

/-- The line of a request. -/
def requestLine (user date : Text) (request : Request) : Text :=
  let fields : List Text :=
    [.ofInt request.kind.id.toInt, request.signal, .ofInt request.pulse.toInt,
      .ofInt request.pass.toInt, request.passName, request.path, request.file, request.format,
      request.archive, request.device, request.server]
  "0 ".toList ++ user ++ " [".toList ++ date ++ "] [".toList ++ Text.joinBy [' '] fields ++ [']']

/-- The line of a failure. -/
def recordLine (user date : Text) (record : FailureRecord) : Text :=
  "1 ".toList ++ user ++ " [".toList ++ date ++ "] ".toList
    ++ Text.ofInt record.origin.number.toInt ++ [' '] ++ Text.ofInt record.code.toInt
    ++ " [".toList ++ record.location ++ "] [".toList ++ record.message ++ [']']

/-- The lines of a request and its failures, in the order of the log. -/
def lines (log : FailureLog) (user date : Text) (request : Request) : List Text :=
  requestLine user date request :: log.records.map (recordLine user date)

end AccessLog

end SignalAccess

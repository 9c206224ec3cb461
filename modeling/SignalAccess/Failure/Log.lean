import SignalAccess.Failure.Basic
import SignalAccess.Wire.Limit
/-!
# The log of a request's failures

Failures are kept as records in the order in which they arose. The first record is the one that the
client sees; the log never drops or replaces a record before it is drained. The texts of a record
made here fit a state block, because they are cut once, after everything was added to them.
-/
namespace SignalAccess

/-- One recorded failure. -/
structure FailureRecord where
  origin : Origin
  location : Text
  code : Int32
  message : Text
  deriving DecidableEq, Repr

namespace FailureRecord

/-- The message of a record: a failure of the system adds the system's own description. -/
def fullMessage (origin : Origin) (code : Int32) (message : Text) : Text :=
  if origin = .system ∧ code ≠ 0 then
    let description := (SystemCode.describe code).toList
    if message.isEmpty then description else message ++ "; ".toList ++ description
  else message

/-- A record whose texts are cut to the limit of a block's text fields. -/
def make (origin : Origin) (location : Text) (code : Int32) (message : Text) : FailureRecord where
  origin := origin
  location := location.takeBytes Limit.field
  code := code
  message := (fullMessage origin code message).takeBytes Limit.field

/-- The record of a failure. A numbered failure of the system is described by the system alone. -/
def ofFailure (location : Text) (failure : Failure) : FailureRecord :=
  let message :=
    match failure with
    | .system (.numbered _) => []
    | _ => failure.message.toList
  make failure.origin location failure.code message

end FailureRecord

/-- The records of one request, oldest first. -/
structure FailureLog where
  records : List FailureRecord
  deriving DecidableEq, Repr

namespace FailureLog

/-- The log without records. -/
def empty : FailureLog := ⟨[]⟩

/-- The log with one more record, which is kept as it is. -/
def push (log : FailureLog) (record : FailureRecord) : FailureLog := ⟨log.records ++ [record]⟩

/-- The log with a record made of its parts. -/
def add (log : FailureLog) (origin : Origin) (location : Text) (code : Int32) (message : Text) :
    FailureLog :=
  log.push (.make origin location code message)

/-- The log with the record of a failure. -/
def record (log : FailureLog) (location : Text) (failure : Failure) : FailureLog :=
  log.push (.ofFailure location failure)

/-- The log with the records of another behind its own. -/
def extend (log other : FailureLog) : FailureLog := ⟨log.records ++ other.records⟩

/-- The record that the client sees. -/
def first? (log : FailureLog) : Option FailureRecord := log.records.head?

/-- The number of records. -/
def size (log : FailureLog) : Nat := log.records.length

/-- Whether nothing was recorded. -/
def isEmpty (log : FailureLog) : Bool := log.records.isEmpty

/-- The records, and the log without them. -/
def drain (log : FailureLog) : List FailureRecord × FailureLog := (log.records, empty)

end FailureLog

/-- A failure together with the name of the step that it is recorded against. -/
structure LocatedFailure where
  location : Text
  failure : Failure
  deriving DecidableEq, Repr

namespace LocatedFailure

/-- A result whose failure is recorded against a step. -/
def locate {α : Type} (location : String) : Except Failure α → Except LocatedFailure α
  | .ok value => .ok value
  | .error failure => .error ⟨location.toList, failure⟩

/-- A result and the log after it: a failure is recorded once, a success leaves the log alone. -/
def recordIn {α : Type} (log : FailureLog) :
    Except LocatedFailure α → Except Failure α × FailureLog
  | .ok value => (.ok value, log)
  | .error ⟨location, failure⟩ => (.error failure, log.record location failure)

end LocatedFailure

/-- A step that is taken for a request, with the log of the request at hand. What it refuses, it
records there. -/
abbrev Recording := EStateM Failure FailureLog

namespace Recording

variable {α : Type}

/-- Records a failure against a step, and fails with it. -/
def refuse (location : String) (failure : Failure) : Recording α := do
  modify fun log => log.record location.toList failure
  throw failure

/-- Goes on with a result. Its failure is recorded against a step. -/
def ofResult (location : String) : Except Failure α → Recording α
  | .ok value => pure value
  | .error failure => refuse location failure

/-- What a step comes to, and the log after it. -/
def outcome (step : Recording α) (log : FailureLog) : Except Failure α × FailureLog :=
  match step log with
  | .ok value log => (.ok value, log)
  | .error failure log => (.error failure, log)

end Recording

end SignalAccess

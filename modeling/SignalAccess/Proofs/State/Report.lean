import SignalAccess.Proofs.State.Length

/-!
# Logs that are stated

The texts of a record are cut to the limit of their fields where the record is made, behind all that
is added to them, and a cut text is a text. So whatever is recorded, taken over and drained, each
record of a log fits a state, and the state that takes over the log can be written and is read back
with it, headline included. What is left to refuse is the number of the records: the wire counts
them in a word, and a log that no word counts cannot be stated.
-/

namespace SignalAccess

open Encoding

/-- A text within the budget is not cut. -/
theorem Text.takeBytes_of_le {budget : Nat} {t : Text} (within : t.byteLength ≤ budget) :
    t.takeBytes budget = t := by
  induction t generalizing budget with
  | nil => rfl
  | cons c t inductionHypothesis =>
    rw [byteLength_cons] at within
    have first : c.utf8Size ≤ budget := by omega
    have rest : byteLength t ≤ budget - c.utf8Size := by omega
    rw [takeBytes, if_pos first, inductionHypothesis rest]

/-- A record that is made fits, whatever it is made of. -/
theorem FailureRecord.textsFit_make (origin : Origin) (location : Text) (code : Int32)
    (message : Text) : (make origin location code message).TextsFit where
  location := Text.byteLength_takeBytes_le Limit.field location
  message := Text.byteLength_takeBytes_le Limit.field (fullMessage origin code message)

namespace FailureLog

variable {log other : FailureLog}

/-- The logs that come about when failures are added by their parts or recorded as they arose, when
the records of one log are taken over into another, and when a log is drained. -/
inductive Built : FailureLog → Prop where
  | empty : Built empty
  | add {log : FailureLog} (built : Built log) (origin : Origin) (location : Text) (code : Int32)
    (message : Text) : Built (log.add origin location code message)
  | record {log : FailureLog} (built : Built log) (location : Text) (failure : Failure) :
    Built (log.record location failure)
  | extend {log other : FailureLog} (built : Built log) (others : Built other) :
    Built (log.extend other)
  | drain {log : FailureLog} (built : Built log) : Built log.drain.2

/-- Every record of the log fits. -/
def Fits (log : FailureLog) : Prop := ∀ record ∈ log.records, record.TextsFit

/-- The texts of an empty log fit. -/
theorem fits_empty : Fits empty := by
  intro record among
  cases among

/-- A record whose texts fit may be added to a log whose texts fit. -/
theorem Fits.push (fits : log.Fits) {record : FailureRecord} (last : record.TextsFit) :
    (log.push record).Fits := by
  intro found among
  rcases List.mem_append.mp among with earlier | new
  · exact fits found earlier
  · rwa [List.mem_singleton.mp new]

/-- Logs whose texts fit may be put one behind the other. -/
theorem Fits.extend (fits : log.Fits) (others : other.Fits) : (log.extend other).Fits := by
  intro found among
  rcases List.mem_append.mp among with own | taken
  · exact fits found own
  · exact others found taken

/-- Whatever built a log, its records fit: each of the steps keeps it. -/
theorem Built.fits (built : log.Built) : log.Fits := by
  induction built with
  | empty => exact fits_empty
  | add built origin location code message fits =>
    exact fits.push (FailureRecord.textsFit_make origin location code message)
  | record built location failure fits =>
    exact fits.push (FailureRecord.textsFit_make _ location failure.code _)
  | extend built others fits othersFit => exact fits.extend othersFit
  | drain built fits => exact fits_empty

end FailureLog

namespace ServerState

variable {server : ServerState} {log : FailureLog}

/-- What a state says of the failures of a request: the whole log, and its first record as the
headline, which is zero and blank if there is none. -/
structure Reports (state : ServerState) (log : FailureLog) : Prop where
  whole : state.log = log
  silent : log.first? = none → state.errorCode = 0 ∧ state.errorMessage = []
  headline : ∀ record, log.first? = some record →
    state.errorCode = record.code ∧ state.errorMessage = record.message

/-- The log that is put into a state is the log of it. -/
theorem log_withLog (server : ServerState) (log : FailureLog) : (server.withLog log).log = log := by
  rw [withLog]
  split
  · rfl
  · rfl

/-- A state that takes over a log whose records fit reports it: the headline is not cut again. -/
theorem reports_withLog (fits : log.Fits) (server : ServerState) :
    (server.withLog log).Reports log where
  whole := server.log_withLog log
  silent := by
    intro absent
    rw [withLog, absent]
    exact ⟨rfl, rfl⟩
  headline := by
    intro record given
    have among : record ∈ log.records := List.mem_of_head? given
    rw [withLog, given]
    exact ⟨rfl, Text.takeBytes_of_le (fits record among).message⟩

/-- A state with a log whose texts fit can be sent. -/
theorem textsFit_withLog (fits : log.Fits) (system : server.system.byteLength ≤ Limit.field)
    (identifier : server.identifier.byteLength ≤ Limit.field) : (server.withLog log).TextsFit := by
  rw [withLog]
  split
  · next first given =>
    exact ⟨Text.byteLength_takeBytes_le Limit.field first.message, system, identifier, fits⟩
  · exact ⟨Nat.zero_le _, system, identifier, fits⟩

/-- A state whose records no word counts is refused, in the section of states. -/
theorem encode_of_many (version : Version) (many : UInt32.size ≤ server.log.size) :
    server.encode version = .error (.protocol .state (.countTooLarge server.log.size)) := by
  have counted : count .state server.log.size =
      .error (.protocol .state (.countTooLarge server.log.size)) := if_neg (Nat.not_lt.mpr many)
  rw [encode, counted]
  rfl

/-- Whatever built the log of a request, the state that takes it over can be written for every
version, and is read back at that version with every record as it was and with the first one as the
headline, as long as a word counts the records. A longer log is refused for its length. -/
theorem reported_of_built {version : Version} (built : log.Built)
    (system : server.system.byteLength ≤ Limit.field)
    (identifier : server.identifier.byteLength ≤ Limit.field) :
    (log.size < UInt32.size → ∃ bytes received,
      (server.withLog log).encode version = .ok bytes ∧
        decode version bytes = .ok received ∧ received.Reports log) ∧
    (UInt32.size ≤ log.size → (server.withLog log).encode version =
      .error (.protocol .state (.countTooLarge log.size))) := by
  have kept : (server.withLog log).log = log := server.log_withLog log
  constructor
  · intro few
    have fits := textsFit_withLog built.fits system identifier
    obtain ⟨bytes, written, -⟩ := fits.hasLength_encode_of_few version (by rwa [kept])
    have decoded : decode version bytes = .ok ((server.withLog log).onWire version) :=
      decode_encode (fun _ => rfl) written
    obtain ⟨whole, silent, headline⟩ := reports_withLog built.fits server
    exact ⟨bytes, _, written, decoded, whole, silent, headline⟩
  · intro many
    rw [← kept] at many
    rw [encode_of_many version many, kept]

/-- A server with a name and without failures. -/
def idle : ServerState where
  version := .current
  errorCode := 0
  errorMessage := []
  system := "linux".toList
  identifier := []
  log := .empty

/-- A log that was drained once, with a failure of the system whose message is longer than its
field, and behind it one that was taken over. -/
def overlong : FailureLog :=
  (FailureLog.drain (.add .empty .code [] 1 [])).2.add .system "open".toList 2
    (List.replicate 2000 'é') |>.extend (.record .empty "parse".toList .missingRequest)

/-- A log whose texts are cut to their limit when it is built is reported as it was built. -/
theorem reported_of_built_overlong :
    overlong.Built ∧ idle.system.byteLength ≤ Limit.field ∧
      idle.identifier.byteLength ≤ Limit.field ∧ overlong.size < UInt32.size ∧
      ∃ bytes received, (idle.withLog overlong).encode 3 = .ok bytes ∧
        decode 3 bytes = .ok received ∧ received.Reports overlong := by
  have built : overlong.Built :=
    .extend (.add (.drain (.add .empty .code [] 1 [])) .system _ 2 _)
      (.record .empty _ .missingRequest)
  have system : idle.system.byteLength ≤ Limit.field := by decide
  have identifier : idle.identifier.byteLength ≤ Limit.field := by decide
  have few : overlong.size < UInt32.size := by decide
  exact ⟨built, system, identifier, few, (reported_of_built built system identifier).1 few⟩

/-- A log of one failure that is taken over into a copy of itself again and again. -/
def doubled : Nat → FailureLog
  | 0 => .add .empty .code [] 0 []
  | n + 1 => (doubled n).extend (doubled n)

/-- A log that is doubled over and over is built step by step. -/
theorem built_doubled (n : Nat) : (doubled n).Built := by
  induction n with
  | zero => exact .add .empty .code [] 0 []
  | succ n built => exact .extend built built

/-- Doubling n times makes 2^n records. -/
theorem size_doubled (n : Nat) : (doubled n).size = 2 ^ n := by
  induction n with
  | zero => rfl
  | succ n inductionHypothesis =>
    rw [FailureLog.size] at inductionHypothesis ⊢
    rw [doubled, FailureLog.extend, List.length_append, inductionHypothesis, Nat.pow_succ]
    omega

/-- After thirty-two times there are more records than a word counts, and the state cannot be
written. -/
theorem not_forall_reported : ¬∀ (log : FailureLog) (server : ServerState) (version : Version),
    log.Built → server.system.byteLength ≤ Limit.field →
      server.identifier.byteLength ≤ Limit.field →
        ∃ bytes, (server.withLog log).encode version = .ok bytes := by
  intro all
  obtain ⟨bytes, written⟩ := all (doubled 32) idle .current (built_doubled 32) (by decide)
    (by decide)
  have many : UInt32.size ≤ (idle.withLog (doubled 32)).log.size := by
    rw [log_withLog, size_doubled]
    exact Nat.le_refl _
  rw [encode_of_many .current many] at written
  cases written

end ServerState

end SignalAccess

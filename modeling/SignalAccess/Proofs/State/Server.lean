import SignalAccess.Proofs.Wire.ReadBack
import SignalAccess.State.Server

/-!
# Reading back what a server states

A state is read back as far as the version that governs has its fields: the system and the
identifier are blank below the version that introduced them, and everything else, the whole log
included, is unchanged. The version of the reader may differ from that of the writer as long as both
have the same fields in common with the server.
-/

namespace SignalAccess

open Encoding

/-- A record of a failure is read back as it was. -/
theorem FailureRecord.readBack (record : FailureRecord) :
    ReadBack record.encode FailureRecord.decode record := by
  obtain ⟨origin, location, code, message⟩ := record
  have read : ReadBack (FailureRecord.encode ⟨origin, location, code, message⟩) decode
      ⟨.ofNumber origin.number, location, code, message⟩ := by
    refine (readBack_int32 origin.number).cons ?_
    refine (readBack_int32 code).cons ?_
    refine (readBack_text .state Limit.field location).cons ?_
    have last := readBack_text .state Limit.field message
    exact (last.map fun t => FailureRecord.mk (.ofNumber origin.number) location code t).single
  rwa [Origin.ofNumber_number] at read

namespace ServerState

/-- What remains of a state on the wire for a receiver of some version. -/
def onWire (version : Version) (server : ServerState) : ServerState :=
  let shared : Version := min server.version version
  { server with
    system := if shared.has .serverSystem then server.system else []
    identifier := if shared.has .serverSystem then server.identifier else [] }

/-- The records of a log are read back as a list of their number. -/
theorem readBack_records (log : FailureLog) :
    ReadBack (joined (log.records.map (·.encode)))
      (Decoder.repeated FailureRecord.decode log.size) log.records := by
  have read := readBack_repeated (·.encode) FailureRecord.decode id log.records
    fun record _ => record.readBack
  rwa [List.map_id] at read

/-- The fields of a server's state that not every version has. -/
def gatedFields : List GatedField := [.serverSystem]

/-- A state is read back behind the entry of its section at every version that has the same fields of
it in common with the writer. -/
theorem readBack_shared (server : ServerState) {version other : Version}
    (agreed : ∀ field ∈ gatedFields, (min server.version version).has field =
      (min server.version other).has field) :
    ∃ body, read other = (do Decoder.enter .state; body) ∧
      ReadBack (server.encode version) body (server.onWire version) := by
  obtain ⟨own, code, message, system, identifier, log⟩ := server
  refine ⟨_, rfl, ?_⟩
  dsimp only at agreed
  have systemAgreed := agreed .serverSystem (List.mem_singleton_self _)
  refine (readBack_int32 own).cons ?_
  refine (readBack_int32 code).cons ?_
  refine (readBack_count .state log.size).cons ?_
  refine (readBack_text .state Limit.field message).cons ?_
  dsimp only [onWire]
  rw [← systemAgreed]
  have records := readBack_records log
  by_cases gated : (min own version).has .serverSystem
  · simp only [gated, if_true, joined_joined_cons]
    refine (readBack_text .state Limit.field system).cons ?_
    refine (readBack_text .state Limit.field identifier).cons ?_
    exact (records.map fun rs => ServerState.mk own code message system identifier ⟨rs⟩).single
  · simp only [gated]
    refine (readBack_nil []).cons ?_
    exact (records.map fun rs => ServerState.mk own code message [] [] ⟨rs⟩).single

/-- A state is read back at every version that has the same fields in common with the writer. -/
theorem readBack_encode (server : ServerState) {version other : Version}
    (agreed : ∀ field, (min server.version version).has field =
      (min server.version other).has field) :
    ∃ body, read other = (do Decoder.enter .state; body) ∧
      ReadBack (server.encode version) body (server.onWire version) :=
  server.readBack_shared fun field _ => agreed field

/-- A state that can be written is read back as what remains of it on the wire, at every version that
has the same fields of it in common with the writer. -/
theorem decode_shared {server : ServerState} {version other : Version}
    (agreed : ∀ field ∈ gatedFields, (min server.version version).has field =
      (min server.version other).has field)
    {bytes : Bytes} (written : server.encode version = .ok bytes) :
    decode other bytes = .ok (server.onWire version) := by
  obtain ⟨body, entered, read⟩ := server.readBack_shared agreed
  exact read.whole entered written _

/-- Versions that agree on the fields of a server's state understand each other: what is written at
one is read at the other, as far as the first one sends it. -/
theorem decode_encode {server : ServerState} {version other : Version}
    (agreed : ∀ field, (min server.version version).has field =
      (min server.version other).has field)
    {bytes : Bytes} (written : server.encode version = .ok bytes) :
    decode other bytes = .ok (server.onWire version) :=
  decode_shared (fun field _ => agreed field) written

end ServerState

end SignalAccess

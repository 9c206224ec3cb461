import SignalAccess.Proofs.State.Client
import SignalAccess.Proofs.State.Server
import SignalAccess.Proofs.Wire.Version
import SignalAccess.Proofs.Wire.Written

/-!
# How long a stated state is

A state whose texts keep to the limits of their fields can be written, and its length on the wire is
known without writing it: it depends on the texts, on the records of the log, and on the fields that
the governing version has. Each record of a log takes sixteen bytes at least, so that a state that
fits a frame has no more records than a word can count.

What remains of a state at a version are the fields that the version has; the others are zero or
blank. A server reads a client's state up to the client's own version, and a client reads a server's
up to the version that the two negotiate.
-/

namespace SignalAccess

open Encoding

/-- The options for data take up 44 bytes. -/
theorem DataOptions.hasLength_encode (options : DataOptions) : options.encode.HasLength 44 := by
  have words : (joined (options.toList.map truth)).HasLength (options.toList.map fun _ => 4).sum :=
    hasLength_joined_map fun b _ => hasLength_truth b
  exact words

namespace ClientState

/-- Every text of the state keeps to the limit of its field. -/
structure TextsFit (client : ClientState) : Prop where
  user : client.user.byteLength ≤ Limit.field
  system : client.system.byteLength ≤ Limit.field
  identifier : client.identifier.byteLength ≤ Limit.field

/-- The number of bytes of the state on the wire, for a receiver of some version: that of its pieces,
one by one. -/
def wireLength (version : Version) (client : ClientState) : Nat :=
  let shared : Version := min client.version version
  [4, 4, 4, 4 + client.user.byteLength, 4, 4, 44,
    if shared.has .privateFlags then 4 else 0,
    if shared.has .clientSystem then
      [4 + client.system.byteLength, 4 + client.identifier.byteLength].sum
    else 0].sum

/-- A state whose texts fit can be written, in so many bytes. -/
theorem TextsFit.hasLength_encode {client : ClientState} (fits : client.TextsFit)
    (version : Version) :
    (client.encode version).HasLength (client.wireLength version) := by
  have flags (gated : Bool) :
      HasLength 4 (if gated then .uint32 client.flags else .int32 0) := by
    split
    · exact hasLength_uint32 client.flags
    · exact hasLength_int32 0
  have text {t : Text} (within : t.byteLength ≤ Limit.field) :
      (Encoding.text .state Limit.field t).HasLength (4 + t.byteLength) :=
    hasLength_text within Limit.field_lt
  have system := (text fits.system).cons ((text fits.identifier).cons hasLength_joined_nil)
  exact (hasLength_int32 _).cons <| (hasLength_int32 _).cons <| (hasLength_int32 _).cons <|
    (text fits.user).cons <| (flags _).cons <| (hasLength_int32 _).cons <|
    client.options.hasLength_encode.cons <|
    (hasLength_ite (hasLength_uint32 _) (hasLength_ok [])).cons <|
    (hasLength_ite system (hasLength_ok [])).cons hasLength_joined_nil

/-- The state as far as a version has its fields. -/
def upTo (version : Version) (client : ClientState) : ClientState :=
  { client with
    flags := if version.has .clientFlags then client.flags else 0
    alternativeRank := if version.has .clientFlags then client.alternativeRank else 0
    privateFlags := if version.has .privateFlags then client.privateFlags else 0
    system := if version.has .clientSystem then client.system else []
    identifier := if version.has .clientSystem then client.identifier else [] }

/-- On the wire for a receiver of its own version, all that its version has remains of a state. -/
theorem onWire_own (client : ClientState) :
    client.onWire client.version = client.upTo client.version := by
  rw [onWire, Version.lower_self]
  rfl

end ClientState

namespace FailureRecord

/-- Both texts of the record keep to the limit of their field. -/
structure TextsFit (record : FailureRecord) : Prop where
  location : record.location.byteLength ≤ Limit.field
  message : record.message.byteLength ≤ Limit.field

/-- The number of bytes of the record on the wire. -/
def wireLength (record : FailureRecord) : Nat :=
  [4, 4, 4 + record.location.byteLength, 4 + record.message.byteLength].sum

/-- A record of a failure whose texts fit has the length that is counted for it. -/
theorem TextsFit.hasLength_encode {record : FailureRecord} (fits : record.TextsFit) :
    record.encode.HasLength record.wireLength :=
  (hasLength_int32 _).cons <| (hasLength_int32 _).cons <|
    (hasLength_text fits.location Limit.field_lt).cons <|
    (hasLength_text fits.message Limit.field_lt).cons hasLength_joined_nil

end FailureRecord

namespace ServerState

/-- Every text of the state keeps to the limit of its field, those of the log included. -/
structure TextsFit (server : ServerState) : Prop where
  errorMessage : server.errorMessage.byteLength ≤ Limit.field
  system : server.system.byteLength ≤ Limit.field
  identifier : server.identifier.byteLength ≤ Limit.field
  records : ∀ record ∈ server.log.records, record.TextsFit

/-- The number of bytes of the state on the wire, for a receiver of some version. -/
def wireLength (version : Version) (server : ServerState) : Nat :=
  let shared : Version := min server.version version
  [4, 4, 4, 4 + server.errorMessage.byteLength,
    if shared.has .serverSystem then
      [4 + server.system.byteLength, 4 + server.identifier.byteLength].sum
    else 0,
    (server.log.records.map FailureRecord.wireLength).sum].sum

/-- Each record takes sixteen bytes at least. -/
theorem size_le_wireLength (version : Version) (server : ServerState) :
    16 * server.log.size ≤ server.wireLength version := by
  have records : 16 * server.log.records.length ≤
      (server.log.records.map FailureRecord.wireLength).sum := by
    induction server.log.records with
    | nil => exact Nat.le_refl 0
    | cons record records inductionHypothesis =>
      simp only [List.map_cons, List.sum_cons, List.length_cons, FailureRecord.wireLength] at *
      omega
  simp only [wireLength, FailureLog.size, List.sum_cons]
  omega

/-- A state whose texts fit can be written, in so many bytes, if a word counts its records. -/
theorem TextsFit.hasLength_encode_of_few {server : ServerState} (fits : server.TextsFit)
    (version : Version) (few : server.log.size < UInt32.size) :
    (server.encode version).HasLength (server.wireLength version) := by
  have text {t : Text} (within : t.byteLength ≤ Limit.field) :
      (Encoding.text .state Limit.field t).HasLength (4 + t.byteLength) :=
    hasLength_text within Limit.field_lt
  have system := (text fits.system).cons ((text fits.identifier).cons hasLength_joined_nil)
  have records : (joined (server.log.records.map (·.encode))).HasLength
      (server.log.records.map FailureRecord.wireLength).sum :=
    hasLength_joined_map fun record member => (fits.records record member).hasLength_encode
  exact (hasLength_int32 _).cons <| (hasLength_int32 _).cons <| (hasLength_count few).cons <|
    (text fits.errorMessage).cons <| (hasLength_ite system (hasLength_ok [])).cons <|
    records.cons hasLength_joined_nil

/-- A word counts the records of a state that a frame holds. -/
theorem TextsFit.hasLength_encode {server : ServerState} (fits : server.TextsFit) {version : Version}
    (short : server.wireLength version < UInt32.size) :
    (server.encode version).HasLength (server.wireLength version) := by
  have few : server.log.size < UInt32.size := by
    have bound := server.size_le_wireLength version
    omega
  exact fits.hasLength_encode_of_few version few

/-- The state as far as a version has its fields. -/
def upTo (version : Version) (server : ServerState) : ServerState :=
  { server with
    system := if version.has .serverSystem then server.system else []
    identifier := if version.has .serverSystem then server.identifier else [] }

/-- On the wire for the version that is negotiated, all that this version has remains of a state. -/
theorem onWire_negotiated (server : ServerState) (client : Version) :
    server.onWire (Version.negotiated client server.version) =
      server.upTo (Version.negotiated client server.version) := by
  rw [onWire, Version.lower_negotiated]
  rfl

end ServerState

end SignalAccess

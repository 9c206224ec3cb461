import SignalAccess.Proofs.State.Client
import SignalAccess.Proofs.State.Server
import SignalAccess.Proofs.Wire.Version

/-!
# States between versions

The one who writes a state and the one who reads it may go by different versions. Each of them takes
the lower of its version and of that of the state, and the two understand each other as soon as both
find the same optional fields there. What is received then is the state without the fields that the
writer's lower version does not have, whatever the reader's is.
-/

namespace SignalAccess

/-- What is received of a client's state where a version governs. The private flags are there from
version 5 on, the flags and the rank from version 6 on, the system and the identifier from version 7
on. -/
structure ClientState.Received (shared : Version) (stated received : ClientState) : Prop where
  version : received.version = stated.version
  process : received.process = stated.process
  timeout : received.timeout = stated.timeout
  user : received.user = stated.user
  flags : received.flags = if shared < 6 then 0 else stated.flags
  alternativeRank : received.alternativeRank = if shared < 6 then 0 else stated.alternativeRank
  options : received.options = stated.options
  privateFlags : received.privateFlags = if shared < 5 then 0 else stated.privateFlags
  system : received.system = if shared < 7 then [] else stated.system
  identifier : received.identifier = if shared < 7 then [] else stated.identifier

/-- What is received of a server's state where a version governs. The system and the identifier are
there from version 7 on; the log is received with all its records, in their order. -/
structure ServerState.Received (shared : Version) (stated received : ServerState) : Prop where
  version : received.version = stated.version
  errorCode : received.errorCode = stated.errorCode
  errorMessage : received.errorMessage = stated.errorMessage
  system : received.system = if shared < 7 then [] else stated.system
  identifier : received.identifier = if shared < 7 then [] else stated.identifier
  log : received.log = stated.log

/-- What remains of a client's state on the wire is what is received of it. -/
theorem ClientState.received_onWire (version : Version) (client : ClientState) :
    client.Received (min client.version version) (client.onWire version) where
  version := rfl
  process := rfl
  timeout := rfl
  user := rfl
  flags := Version.ite_has _ .clientFlags client.flags 0
  alternativeRank := Version.ite_has _ .clientFlags client.alternativeRank 0
  options := rfl
  privateFlags := Version.ite_has _ .privateFlags client.privateFlags 0
  system := Version.ite_has _ .clientSystem client.system []
  identifier := Version.ite_has _ .clientSystem client.identifier []

/-- What remains of a server's state on the wire is what is received of it. -/
theorem ServerState.received_onWire (version : Version) (server : ServerState) :
    server.Received (min server.version version) (server.onWire version) where
  version := rfl
  errorCode := rfl
  errorMessage := rfl
  system := Version.ite_has _ .serverSystem server.system []
  identifier := Version.ite_has _ .serverSystem server.identifier []
  log := rfl

/-- A state that can be written for one version is received at another one if both find the same of
its optional fields: those that the version of the writer lacks are reset, and all others are as they
were stated. -/
theorem states_received (version other : Version) :
    (∀ client : ClientState,
      (∀ field ∈ ClientState.gatedFields, (min client.version version).has field =
        (min client.version other).has field) →
      ∀ bytes, client.encode version = .ok bytes →
        ∃ received, ClientState.decode other bytes = .ok received ∧
          client.Received (min client.version version) received) ∧
    (∀ server : ServerState,
      (∀ field ∈ ServerState.gatedFields, (min server.version version).has field =
        (min server.version other).has field) →
      ∀ bytes, server.encode version = .ok bytes →
        ∃ received, ServerState.decode other bytes = .ok received ∧
          server.Received (min server.version version) received) := by
  constructor
  · intro client agreed bytes written
    exact ⟨client.onWire version, ClientState.decode_shared agreed written,
      client.received_onWire version⟩
  · intro server agreed bytes written
    exact ⟨server.onWire version, ServerState.decode_shared agreed written,
      server.received_onWire version⟩

/-- A client of the latest version that uses every field. -/
def ClientState.complete : ClientState where
  version := .current
  process := 42
  timeout := 600
  user := "jdoe".toList
  flags := 5
  alternativeRank := 2
  options := { DataOptions.none with scalar := true }
  privateFlags := 7
  system := "linux".toList
  identifier := "10.1000/xyz".toList

/-- A server of the latest version that has two failures to report. -/
def ServerState.complete : ServerState where
  version := .current
  errorCode := 1
  errorMessage := "lost".toList
  system := "linux".toList
  identifier := "10.1000/xyz".toList
  log := ⟨[⟨.reader, "read".toList, 1, "lost".toList⟩, ⟨.system, "open".toList, 2, []⟩]⟩

/-- A client's state that is written for version 3 is received at version 4, and a server's that is
written for version 5 at version 6, although the client would state flags there. -/
theorem states_received_complete :
    (∃ bytes received, ClientState.complete.encode 3 = .ok bytes ∧
      ClientState.decode 4 bytes = .ok received ∧ ClientState.complete.Received 3 received) ∧
    (∃ bytes received, ServerState.complete.encode 5 = .ok bytes ∧
      ServerState.decode 6 bytes = .ok received ∧ ServerState.complete.Received 5 received) := by
  constructor
  · obtain ⟨bytes, written⟩ : ∃ bytes, ClientState.complete.encode 3 = .ok bytes := ⟨_, rfl⟩
    obtain ⟨received, decoded, same⟩ :=
      (states_received 3 4).1 ClientState.complete (by decide) bytes written
    exact ⟨bytes, received, written, decoded, same⟩
  · obtain ⟨bytes, written⟩ : ∃ bytes, ServerState.complete.encode 5 = .ok bytes := ⟨_, rfl⟩
    obtain ⟨received, decoded, same⟩ :=
      (states_received 5 6).2 ServerState.complete (by decide) bytes written
    exact ⟨bytes, received, written, decoded, same⟩

end SignalAccess

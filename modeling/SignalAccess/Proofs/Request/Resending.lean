import Mathlib.Data.List.Forall2
import SignalAccess.Proofs.Request.Block
import SignalAccess.Proofs.Wire.Version
import SignalAccess.Proofs.Wire.Written

/-!
# Requests that are sent on

What a peer is given of the requests of a message it can send on. Their kinds are those of ids, and
the kind of an id keeps that id unless the id is negative; so what remains of a request on the wire
travels without a further loss. It can be written wherever the request could, and in the same bytes
if no id was negative.
-/

namespace SignalAccess

open Encoding

namespace RequestKind

/-- A built-in kind is the kind of its id. -/
theorem ofId_id_of_builtIn : ∀ kind ∈ builtIn, ofId kind.id = kind := by decide

/-- The kind of an id is the kind of its own id, too: a negative id is taken for nothing, which has an
id of its own, and every other id is kept. -/
theorem ofId_id_ofId (id : Int32) : ofId (ofId id).id = ofId id := by
  cases found : builtIn.find? (·.id == id) with
  | some kind =>
    have named : ofId id = kind := by simp only [ofId, found]
    rw [named]
    exact ofId_id_of_builtIn kind (List.mem_of_find?_eq_some found)
  | none =>
    by_cases negative : id < 0
    · have named : ofId id = .unknown := by simp only [ofId, found, negative, if_true]
      rw [named]
      exact ofId_id_of_builtIn .unknown List.mem_cons_self
    · have named : ofId id = .added id := by simp only [ofId, found, negative, if_false]
      rw [named]
      exact named

/-- An id that is not negative is that of its kind. -/
theorem id_ofId {id : Int32} (natural : ¬ id < 0) : (ofId id).id = id := by
  cases found : builtIn.find? (·.id == id) with
  | some kind =>
    have named : ofId id = kind := by simp only [ofId, found]
    rw [named]
    simpa using List.find?_some found
  | none =>
    have named : ofId id = .added id := by simp only [ofId, found, natural, if_false]
    rw [named]
    rfl

end RequestKind

namespace Request

/-- What a peer of some version is given of a request that was sent. The kind is that of its id, the
source and its delimiter travel from version 6 on, and whether the request writes from version 7 on.
What follows from source and signal stays behind. -/
structure Received (version : Version) (sent received : Request) : Prop where
  kind : received.kind = .ofId sent.kind.id
  pulse : received.pulse = sent.pulse
  pass : received.pass = sent.pass
  passName : received.passName = sent.passName
  archive : received.archive = sent.archive
  device : received.device = sent.device
  server : received.server = sent.server
  path : received.path = sent.path
  file : received.file = sent.file
  format : received.format = sent.format
  signal : received.signal = sent.signal
  source : received.source = if version < 6 then [] else sent.source
  delimiter : received.delimiter = if version < 6 then [] else sent.delimiter
  put : received.put = if version < 7 then false else sent.put
  function : received.function = []
  subsetText : received.subsetText = []
  arguments : received.arguments = []
  subset : received.subset = .empty

variable {version : Version}

/-- What remains of a request on the wire is what a peer is given. -/
theorem received_onWire (version : Version) (request : Request) :
    request.Received version (request.onWire version) where
  kind := rfl
  pulse := rfl
  pass := rfl
  passName := rfl
  archive := rfl
  device := rfl
  server := rfl
  path := rfl
  file := rfl
  format := rfl
  signal := rfl
  source := version.ite_has .requestSource request.source []
  delimiter := version.ite_has .requestSource request.delimiter []
  put := version.ite_has .requestPut request.put false
  function := rfl
  subsetText := rfl
  arguments := rfl
  subset := rfl

/-- What remains of a request remains of it again. -/
theorem onWire_onWire (version : Version) (request : Request) :
    (request.onWire version).onWire version = request.onWire version := by
  by_cases source : version.has .requestSource <;> by_cases put : version.has .requestPut <;>
    simp only [onWire, source, put, if_true, if_false, RequestKind.ofId_id_ofId, Bool.false_eq_true]

/-- The pieces of a request behind its kind. -/
def behindKind (version : Version) (request : Request) : List Encoding :=
  [.int32 request.pulse, .int32 request.pass,
    .text .state Limit.field request.passName, .text .state Limit.field request.archive,
    .text .state Limit.field request.device, .text .state Limit.field request.server,
    .text .state Limit.field request.path, .text .state Limit.field request.file,
    .text .state Limit.field request.format, .text .state Limit.long request.signal,
    if version.has .requestSource then
      .joined [.text .state Limit.long request.source, .text .state Limit.name request.delimiter]
    else .ok [],
    if version.has .requestPut then .truth request.put else .ok []]

/-- A request starts on the wire with the number of its kind. -/
theorem encode_eq (version : Version) (request : Request) :
    request.encode version = joined (.int32 request.kind.id :: request.behindKind version) := rfl

/-- What does not travel makes no difference to the pieces behind the kind. -/
theorem behindKind_onWire (version : Version) (request : Request) :
    (request.onWire version).behindKind version = request.behindKind version := by
  by_cases source : version.has .requestSource <;> by_cases put : version.has .requestPut <;>
    simp only [behindKind, onWire, source, put, if_true, if_false, Bool.false_eq_true]

/-- What remains of a request can be written if the request can. -/
theorem isWritten_onWire {request : Request} (written : (request.encode version).IsWritten) :
    ((request.onWire version).encode version).IsWritten := by
  rw [encode_eq, isWritten_joined_iff, List.forall_mem_cons] at *
  rw [behindKind_onWire]
  exact ⟨isWritten_int32 _, written.2⟩

/-- What remains of a request whose kind has no negative id is written in the same bytes. -/
theorem encode_onWire {request : Request} (natural : ¬ request.kind.id < 0) :
    (request.onWire version).encode version = request.encode version := by
  have same : (request.onWire version).kind.id = request.kind.id := RequestKind.id_ofId natural
  rw [encode_eq, encode_eq, behindKind_onWire, same]

end Request

namespace RequestBlock

variable {version : Version} {block : RequestBlock}

/-- A block of requests has as many of them on the wire. -/
theorem length_onWire (version : Version) (block : RequestBlock) :
    (block.onWire version).requests.length = block.requests.length :=
  List.length_map _

/-- What the wire has of a block goes over the wire as it is. -/
theorem onWire_onWire (version : Version) (block : RequestBlock) :
    (block.onWire version).onWire version = block.onWire version := by
  have same : block.requests.map ((·.onWire version) ∘ (·.onWire version)) =
      block.requests.map (·.onWire version) :=
    List.map_congr_left fun request _ => request.onWire_onWire version
  simp only [onWire, List.map_map, same]

/-- A version without a number of requests carries exactly one. -/
theorem length_eq_one (written : (block.encode version).IsWritten)
    (uncounted : version.has .requestCount = false) : block.requests.length = 1 := by
  by_contra several
  obtain ⟨bytes, written⟩ := written
  simp only [encode, uncounted, several, if_false, Bool.false_eq_true] at written
  cases written

/-- Requests are written if each of them can be, and their number is one or travels and fits. -/
theorem isWritten_iff : (block.encode version).IsWritten ↔
    (∀ request ∈ block.requests, (request.encode version).IsWritten) ∧
      if version.has .requestCount then (count .state block.requests.length).IsWritten
      else block.requests.length = 1 := by
  have each : (joined (block.requests.map (·.encode version))).IsWritten ↔
      ∀ request ∈ block.requests, (request.encode version).IsWritten := by
    rw [isWritten_joined_iff, List.forall_mem_map]
  by_cases counted : version.has .requestCount
  · simp only [encode, counted, if_true]
    rw [isWritten_joined_iff, List.forall_mem_cons, List.forall_mem_singleton, each, and_comm]
  · by_cases alone : block.requests.length = 1
    · simp only [encode, counted, alone, if_true, if_false, Bool.false_eq_true, and_true]
      exact each
    · simp only [encode, counted, alone, if_false, Bool.false_eq_true, and_false, iff_false]
      rintro ⟨bytes, written⟩
      cases written

/-- What remains of requests can be written if the requests can. -/
theorem isWritten_onWire (written : (block.encode version).IsWritten) :
    ((block.onWire version).encode version).IsWritten := by
  rw [isWritten_iff] at *
  rw [length_onWire]
  refine ⟨?_, written.2⟩
  intro request member
  obtain ⟨sent, inBlock, rfl⟩ := List.mem_map.mp member
  exact Request.isWritten_onWire (written.1 sent inBlock)

/-- What remains of requests whose kinds have no negative ids is written in the same bytes. -/
theorem encode_onWire (natural : ∀ request ∈ block.requests, ¬ request.kind.id < 0) :
    (block.onWire version).encode version = block.encode version := by
  have same : (block.onWire version).requests.map (·.encode version) =
      block.requests.map (·.encode version) := by
    rw [onWire, List.map_map]
    exact List.map_congr_left fun request member => Request.encode_onWire (natural request member)
  simp only [encode, same, length_onWire]

end RequestBlock

/-- Requests that can be written for a version are received at that version, as many and in the same
order, each as far as it travels. A version below 8 carries exactly one. What was received can be sent
on: it is received as it is, and where no kind had a negative id it goes in the same bytes. -/
theorem requests_received {version : Version} {block : RequestBlock} {bytes : Bytes}
    (written : block.encode version = .ok bytes) :
    ∃ received : RequestBlock, RequestBlock.decode version bytes = .ok received ∧
      List.Forall₂ (Request.Received version) block.requests received.requests ∧
      (version < 8 → block.requests.length = 1) ∧
      (∃ again, received.encode version = .ok again ∧
        RequestBlock.decode version again = .ok received) ∧
      ((∀ request ∈ block.requests, ¬ request.kind.id < 0) →
        received.encode version = .ok bytes) := by
  refine ⟨block.onWire version, RequestBlock.decode_encode written, ?_, ?_, ?_, ?_⟩
  · rw [RequestBlock.onWire, List.forall₂_map_right_iff, List.forall₂_same]
    exact fun request _ => request.received_onWire version
  · intro old
    exact RequestBlock.length_eq_one ⟨bytes, written⟩ (version.has_eq_false_iff.mpr old)
  · obtain ⟨again, rewritten⟩ := RequestBlock.isWritten_onWire ⟨bytes, written⟩
    have received := RequestBlock.decode_encode rewritten
    rw [RequestBlock.onWire_onWire] at received
    exact ⟨again, rewritten, received⟩
  · intro natural
    rw [RequestBlock.encode_onWire natural, written]

/-- A request of an added kind with a negative id that writes, with a part that is not sent. -/
def Request.stray : Request :=
  { blank with
    kind := .added (-3), pulse := 99999, signal := "Ip".toList, source := "99999".toList
    subsetText := "[0:2]".toList, put := true }

/-- Sent to a peer of version 6, the request is received without a kind, and does not write. -/
theorem requests_received_stray :
    ∃ bytes received, (RequestBlock.mk [.stray]).encode 6 = .ok bytes ∧
      RequestBlock.decode 6 bytes = .ok received ∧
      List.Forall₂ (Request.Received 6) [.stray] received.requests ∧
      ∃ again, received.encode 6 = .ok again ∧ RequestBlock.decode 6 again = .ok received := by
  obtain ⟨bytes, written⟩ : (RequestBlock.encode 6 ⟨[.stray]⟩).IsWritten := ⟨_, rfl⟩
  obtain ⟨received, decoded, same, -, again, -⟩ := requests_received written
  exact ⟨bytes, received, written, decoded, same, again⟩

end SignalAccess

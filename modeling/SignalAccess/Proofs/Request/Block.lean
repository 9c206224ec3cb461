import SignalAccess.Proofs.Wire.ReadBack
import SignalAccess.Request.Block

/-!
# Reading back requests

The server reads a request as far as it travels. The kind comes back as the kind of its id, the
source and whether the request writes only where the version has them; what the server reads from
source and signal again, it finds blank.
-/

namespace SignalAccess

open Encoding

namespace Request

/-- What remains of a request on the wire for a peer of some version. -/
def onWire (version : Version) (request : Request) : Request :=
  { blank with
    kind := .ofId request.kind.id
    pulse := request.pulse
    pass := request.pass
    passName := request.passName
    archive := request.archive
    device := request.device
    server := request.server
    path := request.path
    file := request.file
    format := request.format
    signal := request.signal
    source := if version.has .requestSource then request.source else []
    delimiter := if version.has .requestSource then request.delimiter else []
    put := if version.has .requestPut then request.put else false }

/-- Whether a request writes, where the version says so. -/
theorem readBack_put (version : Version) (put : Bool) :
    ReadBack (if version.has .requestPut then .truth put else .ok [])
      (if version.has .requestPut then Decoder.truth else pure false)
      (if version.has .requestPut then put else false) := by
  split
  · exact readBack_truth put
  · exact readBack_nil false

/-- A request is read back as what remains of it on the wire. -/
theorem readBack (version : Version) (request : Request) :
    ReadBack (request.encode version) (read version) (request.onWire version) := by
  have put := readBack_put version request.put
  refine (readBack_int32 request.kind.id).cons ?_
  refine (readBack_int32 request.pulse).cons ?_
  refine (readBack_int32 request.pass).cons ?_
  refine (readBack_text .state Limit.field request.passName).cons ?_
  refine (readBack_text .state Limit.field request.archive).cons ?_
  refine (readBack_text .state Limit.field request.device).cons ?_
  refine (readBack_text .state Limit.field request.server).cons ?_
  refine (readBack_text .state Limit.field request.path).cons ?_
  refine (readBack_text .state Limit.field request.file).cons ?_
  refine (readBack_text .state Limit.field request.format).cons ?_
  refine (readBack_text .state Limit.long request.signal).cons ?_
  dsimp only [onWire]
  by_cases gated : version.has .requestSource
  · simp only [gated, if_true, joined_joined_cons]
    refine (readBack_text .state Limit.long request.source).cons ?_
    refine (readBack_text .state Limit.name request.delimiter).cons ?_
    exact (put.cons_ite (readBack_nil _))
  · simp only [gated]
    refine (readBack_nil []).cons ?_
    exact (put.cons_ite (readBack_nil _))

end Request

namespace RequestBlock

/-- What remains of the requests of a message on the wire for a peer of some version. -/
def onWire (version : Version) (block : RequestBlock) : RequestBlock :=
  ⟨block.requests.map (·.onWire version)⟩

/-- The requests of a message are read back in their order, behind the entry of their section. Where
the version has no number of requests there is one. -/
theorem readBack_encode (version : Version) (block : RequestBlock) :
    ∃ body, read version = (do Decoder.enter .state; body) ∧
      ReadBack (block.encode version) body (block.onWire version) := by
  refine ⟨_, rfl, ?_⟩
  have requests := readBack_repeated (·.encode version) (Request.read version)
    (·.onWire version) block.requests fun request _ => request.readBack version
  unfold encode
  by_cases gated : version.has .requestCount
  · simp only [gated, if_true]
    exact (readBack_count .state block.requests.length).cons (requests.map RequestBlock.mk).single
  · by_cases alone : block.requests.length = 1
    · simp only [gated, alone, if_true]
      rw [alone] at requests
      exact requests.map RequestBlock.mk
    · simp only [gated, alone]
      intro bytes written
      cases written

/-- Requests that can be written are read back as what remains of them on the wire. -/
theorem decode_encode {version : Version} {block : RequestBlock} {bytes : Bytes}
    (written : block.encode version = .ok bytes) :
    decode version bytes = .ok (block.onWire version) := by
  obtain ⟨body, entered, read⟩ := block.readBack_encode version
  exact read.whole entered written _

end RequestBlock

end SignalAccess

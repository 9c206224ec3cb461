import SignalAccess.Proofs.Wire.ReadBack
import SignalAccess.State.Client

/-!
# Reading back what a client states

As with a server, a state is read back as far as the version that governs has its fields. The flags
and the rank are zero below the version that introduced them, although words stand in their place;
the private flags, the system and the identifier do not travel at all below theirs.
-/

namespace SignalAccess

open Encoding

/-- The options are read back as they were, in the order of the wire. -/
theorem DataOptions.readBack (options : DataOptions) :
    ReadBack options.encode DataOptions.decode options := by
  obtain ⟨a, b, c, d, e, f, g, h, i, j, k⟩ := options
  refine (readBack_truth a).cons <| (readBack_truth b).cons <| (readBack_truth c).cons <|
    (readBack_truth d).cons <| (readBack_truth e).cons <| (readBack_truth f).cons <|
    (readBack_truth g).cons <| (readBack_truth h).cons <| (readBack_truth i).cons <|
    (readBack_truth j).cons ?_
  exact ((readBack_truth k).map (DataOptions.mk a b c d e f g h i j)).single

namespace ClientState

/-- What remains of a state on the wire for a receiver of some version. -/
def onWire (version : Version) (client : ClientState) : ClientState :=
  let shared : Version := min client.version version
  { client with
    flags := if shared.has .clientFlags then client.flags else 0
    alternativeRank := if shared.has .clientFlags then client.alternativeRank else 0
    privateFlags := if shared.has .privateFlags then client.privateFlags else 0
    system := if shared.has .clientSystem then client.system else []
    identifier := if shared.has .clientSystem then client.identifier else [] }

/-- The flags and the rank are read back where the shared version has them. Where it does not, two
words are read all the same and come to nothing. -/
theorem readBack_flags (shared : Version) (flags : UInt32) (rank : Int32) :
    ReadBack
      (joined [if shared.has .clientFlags then .uint32 flags else .int32 0, .int32 rank])
      (decodeFlags shared)
      (if shared.has .clientFlags then flags else 0,
        if shared.has .clientFlags then rank else 0) := by
  unfold decodeFlags
  by_cases gated : shared.has .clientFlags
  · simp only [gated, if_true]
    exact (readBack_uint32 flags).cons ((readBack_int32 rank).map (Prod.mk flags)).single
  · simp only [gated]
    exact (readBack_int32 0).cons ((readBack_int32 rank).map fun _ => (0, 0)).single

/-- The private flags are read back where the shared version has them, and are zero otherwise. -/
theorem readBack_privateFlags (shared : Version) (flags : UInt32) :
    ReadBack (if shared.has .privateFlags then .uint32 flags else .ok [])
      (if shared.has .privateFlags then Decoder.uint32 else pure 0)
      (if shared.has .privateFlags then flags else 0) := by
  split
  · exact readBack_uint32 flags
  · exact readBack_nil 0

/-- The fields of a client's state that not every version has. -/
def gatedFields : List GatedField := [.privateFlags, .clientFlags, .clientSystem]

/-- A state is read back behind the entry of its section at every version that has the same fields of
it in common with the writer. -/
theorem readBack_shared (client : ClientState) {version other : Version}
    (agreed : ∀ field ∈ gatedFields, (min client.version version).has field =
      (min client.version other).has field) :
    ∃ body, read other = (do Decoder.enter .state; body) ∧
      ReadBack (client.encode version) body (client.onWire version) := by
  obtain ⟨own, process, timeout, user, flags, rank, options, privateFlags, system, identifier⟩ :=
    client
  refine ⟨_, rfl, ?_⟩
  dsimp only at agreed
  have privateAgreed := agreed .privateFlags (by simp [gatedFields])
  have flagsAgreed := agreed .clientFlags (by simp [gatedFields])
  have systemAgreed := agreed .clientSystem (by simp [gatedFields])
  have flagsRead := readBack_flags (min own version) flags rank
  have privateRead := readBack_privateFlags (min own version) privateFlags
  have sameFlags : decodeFlags (min own version) = decodeFlags (min own other) := by
    unfold decodeFlags
    rw [flagsAgreed]
  rw [sameFlags] at flagsRead
  refine (readBack_int32 own).cons ?_
  refine (readBack_int32 process).cons ?_
  refine (readBack_int32 timeout).cons ?_
  refine (readBack_text .state Limit.field user).cons ?_
  dsimp only [onWire]
  refine (flagsRead.append ?_ : ReadBack (joined ([_, _] ++ _)) _ _)
  refine (DataOptions.readBack options).cons ?_
  rw [← privateAgreed, ← systemAgreed]
  refine privateRead.cons_ite ?_
  by_cases gated : (min own version).has .clientSystem
  · simp only [gated, if_true, joined_joined_cons [_, _] []]
    refine (readBack_text .state Limit.field system).cons ?_
    exact ((readBack_text .state Limit.field identifier).map _).single
  · simp only [gated]
    exact ((readBack_nil []).map _).single

/-- A state is read back at every version that has the same fields in common with the writer. -/
theorem readBack_encode (client : ClientState) {version other : Version}
    (agreed : ∀ field, (min client.version version).has field =
      (min client.version other).has field) :
    ∃ body, read other = (do Decoder.enter .state; body) ∧
      ReadBack (client.encode version) body (client.onWire version) :=
  client.readBack_shared fun field _ => agreed field

/-- A state that can be written is read back as what remains of it on the wire, at every version that
has the same fields of it in common with the writer. -/
theorem decode_shared {client : ClientState} {version other : Version}
    (agreed : ∀ field ∈ gatedFields, (min client.version version).has field =
      (min client.version other).has field)
    {bytes : Bytes} (written : client.encode version = .ok bytes) :
    decode other bytes = .ok (client.onWire version) := by
  obtain ⟨body, entered, read⟩ := client.readBack_shared agreed
  exact read.whole entered written _

/-- Versions that agree on the fields of a client's state understand each other: what is written at
one is read at the other, as far as the first one sends it. -/
theorem decode_encode {client : ClientState} {version other : Version}
    (agreed : ∀ field, (min client.version version).has field =
      (min client.version other).has field)
    {bytes : Bytes} (written : client.encode version = .ok bytes) :
    decode other bytes = .ok (client.onWire version) :=
  decode_shared (fun field _ => agreed field) written

end ClientState

end SignalAccess

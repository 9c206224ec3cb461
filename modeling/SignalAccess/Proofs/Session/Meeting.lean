import Mathlib.Logic.Relation
import SignalAccess.Proofs.Session.Run
import SignalAccess.Proofs.State.Length

/-!
# Meetings

Two ends of a connection open a session with each other while the bytes of either direction arrive in
pieces of any size and in any order. Each end runs its part of the handshake on what has arrived at
it: it has returned when that decides its operation, and waits otherwise. What it has written is what
its operation, run on what has arrived, leaves written, so the bytes that are under way follow from
the pieces that have arrived.

The invariant of a meeting is that the pieces of either direction make up a front of the frame that
travels there. The answer is under way only when the client's state has arrived as a whole.
-/

namespace SignalAccess

open Session Operation

/-- Two ends that are going to open a session, with the largest payloads that they admit. -/
structure Ends where
  client : ClientState
  server : ServerState
  clientLimit : UInt32
  serverLimit : UInt32

namespace Ends

/-- The version that governs the ends. -/
def negotiated (ends : Ends) : Version := Version.negotiated ends.client.version ends.server.version

/-- The bytes with which the client opens the session. -/
def hello (ends : Ends) : Bytes := ((helloMessage ends.client).frame .client 0).encode

/-- The bytes with which the server answers. -/
def answer (ends : Ends) : Bytes :=
  ((answerMessage ends.client.version ends.server).frame .server 0).encode

/-- The states of the ends can be written, the server admits that of the client, and a frame holds
that of the server. Whether the client admits the answer is left open. -/
structure Writable (ends : Ends) : Prop where
  hello : ∃ payload, ends.client.encode ends.client.version = .ok payload ∧
    payload.length ≤ ends.serverLimit.toNat
  answer : ∃ payload, ends.server.encode ends.negotiated = .ok payload ∧
    payload.length < UInt32.size

end Ends

/-- The pieces that have arrived at the ends of a connection. -/
structure Meeting where
  atClient : List Bytes
  atServer : List Bytes

namespace Meeting

/-- Nothing has arrived. -/
def begun : Meeting := ⟨[], []⟩

variable (ends : Ends)

/-- The end at which the client opens the session. -/
def clientEnd (meeting : Meeting) : Session :=
  opened .client (.carrying meeting.atClient) ends.clientLimit

/-- The end at which the server opens the session. -/
def serverEnd (meeting : Meeting) : Session :=
  opened .server (.carrying meeting.atServer) ends.serverLimit

/-- What the client has written. -/
def fromClient (meeting : Meeting) : Bytes :=
  ((openAsClient ends.client).after (meeting.clientEnd ends)).connection.written

/-- What the server has written. -/
def fromServer (meeting : Meeting) : Bytes :=
  ((openAsServer ends.server).after (meeting.serverEnd ends)).connection.written

/-- The bytes under way to the server. -/
def toServer (meeting : Meeting) : Bytes :=
  (meeting.fromClient ends).drop meeting.atServer.flatten.length

/-- The bytes under way to the client. -/
def toClient (meeting : Meeting) : Bytes :=
  (meeting.fromServer ends).drop meeting.atClient.flatten.length

/-- What can happen next: any piece of the bytes under way arrives. -/
inductive Step : Meeting → Meeting → Prop where
  | carryToServer {meeting : Meeting} {piece : Bytes} (some : piece ≠ [])
      (underWay : piece <+: meeting.toServer ends) :
      Step meeting { meeting with atServer := meeting.atServer ++ [piece] }
  | carryToClient {meeting : Meeting} {piece : Bytes} (some : piece ≠ [])
      (underWay : piece <+: meeting.toClient ends) :
      Step meeting { meeting with atClient := meeting.atClient ++ [piece] }

/-- Both ends have returned. -/
def Complete (meeting : Meeting) : Prop :=
  (openAsClient ends.client).Decided (meeting.clientEnd ends) ∧
    (openAsServer ends.server).Decided (meeting.serverEnd ends)

/-- Neither end can fail: when it returns it is given the state of the other one, as far as the
governing version has its fields, and its session has that version. A meeting that cannot go on is
complete, and every meeting comes to an end. -/
structure Succeeds (meeting : Meeting) : Prop where
  client : (openAsClient ends.client).Decided (meeting.clientEnd ends) →
    (openAsClient ends.client).outcome (meeting.clientEnd ends) =
        .ok (ends.server.upTo (min ends.client.version ends.server.version)) ∧
      ((openAsClient ends.client).after (meeting.clientEnd ends)).version =
        some (min ends.client.version ends.server.version)
  server : (openAsServer ends.server).Decided (meeting.serverEnd ends) →
    (openAsServer ends.server).outcome (meeting.serverEnd ends) =
        .ok (ends.client.upTo ends.client.version) ∧
      ((openAsServer ends.server).after (meeting.serverEnd ends)).version =
        some (min ends.client.version ends.server.version)
  completes : (∀ next, ¬ Step ends meeting next) → meeting.Complete ends
  terminates : Acc (fun later earlier => Step ends earlier later) meeting

/-- The pieces of either direction are not empty, and make up a front of what travels there. -/
structure Sound (meeting : Meeting) : Prop where
  clientNonempty : [] ∉ meeting.atClient
  serverNonempty : [] ∉ meeting.atServer
  hello : meeting.atServer.flatten <+: ends.hello
  answer : meeting.atClient.flatten <+: meeting.fromServer ends

variable {ends} {meeting next : Meeting}

/-- Whatever has arrived, the client has written who it is. -/
theorem fromClient_eq (writable : ends.Writable) (meeting : Meeting) :
    meeting.fromClient ends = ends.hello := by
  obtain ⟨hello, written, within⟩ := writable.hello
  exact written_after_openAsClient written (Nat.lt_of_le_of_lt within ends.serverLimit.toNat_lt)

/-- What has arrived of a stream and what is under way make up the stream. -/
theorem flatten_append_drop {pieces : List Bytes} {stream : Bytes}
    (front : pieces.flatten <+: stream) :
    pieces.flatten ++ stream.drop pieces.flatten.length = stream := by
  obtain ⟨rest, rfl⟩ := front
  rw [List.drop_left]

/-- A piece that arrives makes up a front of the stream with those before it. -/
theorem flatten_concat_prefix {pieces : List Bytes} {piece stream : Bytes}
    (front : pieces.flatten <+: stream) (underWay : piece <+: stream.drop pieces.flatten.length) :
    (pieces ++ [piece]).flatten <+: stream := by
  rw [← flatten_append_drop front, List.flatten_append, List.flatten_singleton]
  exact (List.prefix_append_right_inj _).mpr underWay

/-- No piece is empty if none was and the last one is not. -/
theorem nil_not_mem_concat {pieces : List Bytes} {piece : Bytes} (nonempty : [] ∉ pieces)
    (some : piece ≠ []) : [] ∉ pieces ++ [piece] := by
  simp [nonempty, some.symm]

/-- A server to which something is under way has written nothing; otherwise it has returned. -/
theorem Sound.server_cases (sound : meeting.Sound ends) (writable : ends.Writable) :
    (meeting.toServer ends = [] ∧ meeting.fromServer ends = ends.answer ∧
      ∃ last, (openAsServer ends.server).Gives (meeting.serverEnd ends)
        (.ok (ends.client.onWire ends.client.version) last) ∧ last.version = some ends.negotiated) ∨
    (meeting.toServer ends ≠ [] ∧ meeting.fromServer ends = [] ∧
      (openAsServer ends.server).Starved (meeting.serverEnd ends)) := by
  obtain ⟨hello, written, within⟩ := writable.hello
  obtain ⟨answer, answered, short⟩ := writable.answer
  have fits : (helloMessage ends.client).Fits ends.serverLimit := by
    rw [helloMessage_eq written]
    exact ⟨.inl rfl, within⟩
  have stream : meeting.atServer.flatten ++ meeting.toServer ends = ends.hello := by
    rw [toServer, fromClient_eq writable]
    exact flatten_append_drop sound.hello
  rcases openAsServer_cases written fits answered short sound.serverNonempty stream with
    ⟨arrived, last, gives, version, wrote⟩ | ⟨waiting, starved, silent⟩
  · refine .inl ⟨arrived, ?_, last, gives, version⟩
    rw [fromServer, serverEnd, gives.after_eq]
    exact wrote
  · exact .inr ⟨waiting, silent, starved⟩

/-- What has arrived at the client is a front of the answer, even if the server has not answered. -/
theorem Sound.answer_prefix (sound : meeting.Sound ends) (writable : ends.Writable) :
    meeting.atClient.flatten <+: ends.answer := by
  have front := sound.answer
  rcases sound.server_cases writable with ⟨-, answered, -⟩ | ⟨-, silent, -⟩
  · rwa [answered] at front
  · rw [silent] at front
    rw [List.prefix_nil.mp front]
    exact List.nil_prefix

/-- A client to which something of the answer is still to come waits; otherwise it has returned. -/
theorem Sound.client_cases (sound : meeting.Sound ends) (writable : ends.Writable)
    (fits : (answerMessage ends.client.version ends.server).Fits ends.clientLimit) :
    (∃ last, (openAsClient ends.client).Gives (meeting.clientEnd ends)
      (.ok (ends.server.onWire ends.negotiated) last) ∧ last.version = some ends.negotiated) ∨
    (ends.answer.drop meeting.atClient.flatten.length ≠ [] ∧
      (openAsClient ends.client).Starved (meeting.clientEnd ends)) := by
  obtain ⟨hello, written, within⟩ := writable.hello
  obtain ⟨answer, answered, -⟩ := writable.answer
  have short : hello.length < UInt32.size := Nat.lt_of_le_of_lt within ends.serverLimit.toNat_lt
  have stream := flatten_append_drop (sound.answer_prefix writable)
  rcases openAsClient_cases written short answered fits sound.clientNonempty stream with
    ⟨-, last, gives, version, -⟩ | ⟨waiting, starved⟩
  · exact .inl ⟨last, gives, version⟩
  · exact .inr ⟨waiting, starved⟩

/-- A client that has opened the session admits the answer. -/
theorem Sound.answer_within (sound : meeting.Sound ends) (writable : ends.Writable)
    {stated : ServerState}
    (opened : (openAsClient ends.client).outcome (meeting.clientEnd ends) = .ok stated) :
    (answerMessage ends.client.version ends.server).payload.length ≤ ends.clientLimit.toNat := by
  obtain ⟨hello, written, within⟩ := writable.hello
  obtain ⟨answer, answered, short⟩ := writable.answer
  have helloShort : hello.length < UInt32.size :=
    Nat.lt_of_le_of_lt within ends.serverLimit.toNat_lt
  have answerShort :
      (answerMessage ends.client.version ends.server).payload.length < UInt32.size := by
    rw [answerMessage_eq answered]
    exact short
  rw [outcome, clientEnd, openAsClient_eq rfl rfl rfl written helloShort] at opened
  split at opened
  · next given =>
    obtain ⟨frame, next, expected, -⟩ := bind_eq_ok given
    exact within_of_expect rfl rfl rfl sound.clientNonempty (sound.answer_prefix writable)
      answerShort expected
  · cases opened

/-! ## Steps and runs -/

/-- A meeting is sound when it begins. -/
theorem sound_begun (ends : Ends) : Sound ends begun where
  clientNonempty := List.not_mem_nil
  serverNonempty := List.not_mem_nil
  hello := List.nil_prefix
  answer := List.nil_prefix

/-- A piece that arrives is a part of what travels there. While the client's state is arriving nothing
has arrived at the client, so the answer starts from nothing. -/
theorem Sound.step (sound : meeting.Sound ends) (writable : ends.Writable)
    (step : Step ends meeting next) : next.Sound ends := by
  cases step with
  | carryToServer some underWay =>
    have front := underWay
    rw [toServer, fromClient_eq writable] at front
    refine ⟨sound.clientNonempty, nil_not_mem_concat sound.serverNonempty some,
      flatten_concat_prefix sound.hello front, ?_⟩
    rcases sound.server_cases writable with ⟨arrived, -⟩ | ⟨-, silent, -⟩
    · rw [arrived] at underWay
      exact absurd (List.prefix_nil.mp underWay) some
    · have nothing := sound.answer
      rw [silent] at nothing
      rw [List.prefix_nil.mp nothing]
      exact List.nil_prefix
  | carryToClient some underWay =>
    exact ⟨nil_not_mem_concat sound.clientNonempty some, sound.serverNonempty, sound.hello,
      flatten_concat_prefix sound.answer underWay⟩

/-- A meeting that is sound stays so, whatever arrives. -/
theorem Sound.run (sound : meeting.Sound ends) (writable : ends.Writable)
    (run : Relation.ReflTransGen (Step ends) meeting next) : next.Sound ends := by
  induction run with
  | refl => exact sound
  | tail _ step inductionHypothesis => exact inductionHypothesis.step writable step

/-- How many bytes have not arrived yet, written or not. -/
def remaining (ends : Ends) (meeting : Meeting) : Nat :=
  ends.hello.length + ends.answer.length -
    (meeting.atServer.flatten.length + meeting.atClient.flatten.length)

/-- Whenever a piece arrives, fewer bytes remain. -/
theorem Sound.step_decreases (sound : meeting.Sound ends) (writable : ends.Writable)
    (step : Step ends meeting next) : next.remaining ends < meeting.remaining ends := by
  have soundNext := sound.step writable step
  have helloBound := soundNext.hello.length_le
  have answerBound := (soundNext.answer_prefix writable).length_le
  cases step with
  | carryToServer some underWay | carryToClient some underWay =>
    have positive := List.length_pos_iff.mpr some
    simp only [remaining, List.flatten_append, List.flatten_singleton, List.length_append] at *
    omega

/-- Every meeting comes to an end: only so many bytes can arrive. -/
theorem Sound.acc (sound : meeting.Sound ends) (writable : ends.Writable) :
    Acc (fun later earlier => Step ends earlier later) meeting := by
  induction bytes : meeting.remaining ends using Nat.strongRecOn generalizing meeting with
  | _ bytes fewerBytes =>
    refine Acc.intro meeting fun next step => ?_
    have fewer := sound.step_decreases writable step
    exact fewerBytes _ (bytes ▸ fewer) (sound.step writable step) rfl

/-- Where nothing is under way, both ends have returned. -/
theorem Sound.complete (sound : meeting.Sound ends) (writable : ends.Writable)
    (fits : (answerMessage ends.client.version ends.server).Fits ends.clientLimit)
    (ended : ∀ next, ¬ Step ends meeting next) : meeting.Complete ends := by
  have nothingToServer : meeting.toServer ends = [] :=
    Classical.byContradiction fun some => ended _ (.carryToServer some List.prefix_rfl)
  have nothingToClient : meeting.toClient ends = [] :=
    Classical.byContradiction fun some => ended _ (.carryToClient some List.prefix_rfl)
  rcases sound.server_cases writable with ⟨-, answered, _, serverGives, -⟩ | ⟨waiting, -⟩
  · rw [toClient, answered] at nothingToClient
    rcases sound.client_cases writable fits with ⟨_, clientGives, -⟩ | ⟨waiting, -⟩
    · exact ⟨clientGives.decided, serverGives.decided⟩
    · exact absurd nothingToClient waiting
  · exact absurd nothingToServer waiting

end Meeting

namespace Ends

variable {ends : Ends}

/-- The length of the answer, where the texts of the server fit. -/
theorem length_answer (serverTexts : ends.server.TextsFit)
    (short : ends.server.wireLength ends.negotiated < UInt32.size) :
    (answerMessage ends.client.version ends.server).payload.length =
      ends.server.wireLength ends.negotiated := by
  obtain ⟨answer, answered, length⟩ := serverTexts.hasLength_encode short
  rw [answerMessage_eq answered]
  exact length

/-- Ends whose texts fit can write their states. -/
theorem writable (clientTexts : ends.client.TextsFit) (serverTexts : ends.server.TextsFit)
    (helloWithin : ends.client.wireLength ends.client.version ≤ ends.serverLimit.toNat)
    (short : ends.server.wireLength ends.negotiated < UInt32.size) : ends.Writable := by
  obtain ⟨hello, written, helloLength⟩ := clientTexts.hasLength_encode ends.client.version
  obtain ⟨answer, answered, answerLength⟩ := serverTexts.hasLength_encode short
  exact ⟨⟨hello, written, helloLength ▸ helloWithin⟩, ⟨answer, answered, answerLength ▸ short⟩⟩

end Ends

/-- Two ends whose texts fit, and that admit each other's states, open a session with each other. In
every order in which the bytes arrive, and however they are cut into pieces, neither end fails: the
server is given the state of the client as far as the client's version has its fields, the client is
given that of the server as far as the lower version has them, and the lower version governs both
ends then. -/
theorem meeting_succeeds {ends : Ends} (clientTexts : ends.client.TextsFit)
    (serverTexts : ends.server.TextsFit)
    (helloWithin : ends.client.wireLength ends.client.version ≤ ends.serverLimit.toNat)
    (answerWithin : ends.server.wireLength (min ends.client.version ends.server.version) ≤
      ends.clientLimit.toNat)
    {meeting : Meeting} (run : Relation.ReflTransGen (Meeting.Step ends) .begun meeting) :
    meeting.Succeeds ends := by
  have short : ends.server.wireLength ends.negotiated < UInt32.size :=
    Nat.lt_of_le_of_lt answerWithin ends.clientLimit.toNat_lt
  have writable := Ends.writable clientTexts serverTexts helloWithin short
  have fits : (answerMessage ends.client.version ends.server).Fits ends.clientLimit :=
    ⟨replyFlags_cases ends.server,
      Nat.le_trans (Nat.le_of_eq (Ends.length_answer serverTexts short)) answerWithin⟩
  have sound := (Meeting.sound_begun ends).run writable run
  refine ⟨?_, ?_, sound.complete writable fits, sound.acc writable⟩
  · intro decided
    rcases sound.client_cases writable fits with ⟨last, gives, version⟩ | ⟨-, starved⟩
    · rw [gives.outcome_eq, gives.after_eq, Ends.negotiated, ServerState.onWire_negotiated]
      exact ⟨rfl, version⟩
    · exact absurd decided starved.not_decided
  · intro decided
    rcases sound.server_cases writable with ⟨-, -, last, gives, version⟩ | ⟨-, -, starved⟩
    · rw [gives.outcome_eq, gives.after_eq, ClientState.onWire_own]
      exact ⟨rfl, version⟩
    · exact absurd decided starved.not_decided

/-- A client that does not admit the answer never opens the session, although all texts fit. -/
theorem not_succeeds_of_long {ends : Ends} (clientTexts : ends.client.TextsFit)
    (serverTexts : ends.server.TextsFit)
    (helloWithin : ends.client.wireLength ends.client.version ≤ ends.serverLimit.toNat)
    (short : ends.server.wireLength ends.negotiated < UInt32.size)
    (long : ends.clientLimit.toNat < ends.server.wireLength ends.negotiated) :
    ∃ meeting, Relation.ReflTransGen (Meeting.Step ends) .begun meeting ∧
      ¬ meeting.Succeeds ends := by
  have writable := Ends.writable clientTexts serverTexts helloWithin short
  have begun := Meeting.sound_begun ends
  obtain ⟨meeting, run, ended⟩ := exists_last_of_acc (begun.acc writable)
  refine ⟨meeting, run, fun succeeds => ?_⟩
  obtain ⟨opened, -⟩ := succeeds.client (succeeds.completes ended).1
  have within := (begun.run writable run).answer_within writable opened
  rw [Ends.length_answer serverTexts short] at within
  omega

/-- A client of version 5, which has neither flags nor a system, and a server of version 8. -/
def Ends.apart : Ends := ⟨.visitor 5, .host, FrameHeader.standardLimit, FrameHeader.standardLimit⟩

/-- The ends three versions apart meet, and the server is given the client's state without what came
after version 5. -/
theorem meeting_succeeds_apart :
    ∃ meeting, Relation.ReflTransGen (Meeting.Step .apart) .begun meeting ∧
      meeting.Complete .apart ∧ meeting.Succeeds .apart ∧
      (openAsServer .host).outcome (meeting.serverEnd .apart) = .ok { ClientState.visitor 5 with
        flags := 0, alternativeRank := 0, system := [], identifier := [] } := by
  have clientTexts : Ends.apart.client.TextsFit := ⟨by decide, by decide, by decide⟩
  have serverTexts : Ends.apart.server.TextsFit := by
    refine ⟨by decide, by decide, by decide, fun record member => ?_⟩
    obtain rfl := List.mem_singleton.mp member
    exact ⟨by decide, by decide⟩
  have helloWithin : Ends.apart.client.wireLength Ends.apart.client.version ≤
      Ends.apart.serverLimit.toNat := by decide
  have answerWithin : Ends.apart.server.wireLength (min Ends.apart.client.version
      Ends.apart.server.version) ≤ Ends.apart.clientLimit.toNat := by decide
  have writable := Ends.writable clientTexts serverTexts helloWithin (by decide)
  obtain ⟨meeting, run, ended⟩ := exists_last_of_acc ((Meeting.sound_begun .apart).acc writable)
  have succeeds := meeting_succeeds clientTexts serverTexts helloWithin answerWithin run
  have complete := succeeds.completes ended
  exact ⟨meeting, run, complete, succeeds, (succeeds.server complete.2).1⟩

/-- A server that reports a number of failures without words. -/
def ServerState.reporting (n : Nat) : ServerState where
  version := .current
  errorCode := 0
  errorMessage := []
  system := []
  identifier := []
  log := ⟨List.replicate n ⟨.code, [], 0, []⟩⟩

/-- A server that reports without words has texts that can be written. -/
theorem ServerState.textsFit_reporting (n : Nat) : (reporting n).TextsFit := by
  refine ⟨by simp [reporting], by simp [reporting], by simp [reporting], fun record member => ?_⟩
  rw [List.eq_of_mem_replicate member]
  exact ⟨by decide, by decide⟩

/-- Each failure without words takes sixteen bytes. -/
theorem ServerState.wireLength_reporting (n : Nat) :
    (reporting n).wireLength .current = 24 + 16 * n := by
  have gated : (min (reporting n).version .current : Version).has .serverSystem = true := by
    simp only [reporting]
    decide
  have empty : FailureRecord.wireLength ⟨.code, [], 0, []⟩ = 16 := by decide
  simp only [wireLength, gated]
  simp only [reporting, List.map_replicate, empty, List.sum_replicate_nat, List.sum_cons,
    List.sum_nil, Text.byteLength_nil, if_true]
  omega

/-- That all texts fit is not enough: a client does not admit an answer of 24 bytes if its limit is
16, and not even a client with the standard limit admits the answer of a server that reports
`0x4000000` failures. -/
theorem not_forall_meeting_succeeds :
    (¬ ∀ (client : ClientState) (server : ServerState), client.TextsFit → server.TextsFit →
      ∀ meeting, Relation.ReflTransGen
        (Meeting.Step ⟨client, server, 16, FrameHeader.standardLimit⟩) .begun meeting →
        meeting.Succeeds ⟨client, server, 16, FrameHeader.standardLimit⟩) ∧
    ¬ ∀ (client : ClientState) (server : ServerState), client.TextsFit → server.TextsFit →
      ∀ meeting, Relation.ReflTransGen (Meeting.Step
        ⟨client, server, FrameHeader.standardLimit, FrameHeader.standardLimit⟩) .begun meeting →
        meeting.Succeeds ⟨client, server, FrameHeader.standardLimit, FrameHeader.standardLimit⟩ := by
  have clientTexts : (ClientState.visitor .current).TextsFit := ⟨by decide, by decide, by decide⟩
  have helloWithin : (ClientState.visitor .current).wireLength .current ≤
      FrameHeader.standardLimit.toNat := by decide
  have fails (limit : UInt32) (n : Nat) (few : n < 0x8000000) (long : limit.toNat < 24 + 16 * n) :
      ∃ meeting, Relation.ReflTransGen (Meeting.Step ⟨.visitor .current, .reporting n, limit,
          FrameHeader.standardLimit⟩) .begun meeting ∧
        ¬ meeting.Succeeds ⟨.visitor .current, .reporting n, limit, FrameHeader.standardLimit⟩ := by
    have length := ServerState.wireLength_reporting n
    have words : UInt32.size = 0x100000000 := rfl
    have short : (ServerState.reporting n).wireLength .current < UInt32.size := by omega
    exact not_succeeds_of_long clientTexts (ServerState.textsFit_reporting n) helloWithin short
      (length ▸ long)
  constructor
  · intro claim
    obtain ⟨meeting, run, fails⟩ := fails 16 0 (by decide) (by decide)
    exact fails (claim _ _ clientTexts (ServerState.textsFit_reporting 0) meeting run)
  · intro claim
    obtain ⟨meeting, run, fails⟩ := fails FrameHeader.standardLimit 0x4000000 (by decide) (by decide)
    exact fails (claim _ _ clientTexts (ServerState.textsFit_reporting 0x4000000) meeting run)

end SignalAccess

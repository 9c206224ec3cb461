import SignalAccess.Proofs.Data.Nesting
import SignalAccess.Proofs.Session.Opening

/-!
# Runs of an exchange

Whatever the order of the steps and however the bytes are cut, an exchange goes through its stages
round by round. It never gets stuck before it is complete, and it cannot go on forever, so every run
can be completed; and what the ends are given is what was sent, round by round.

That the data blocks come back unchanged needs that the objects among them are read back from their
documents. An object whose structures lie too deep within each other is sent, and cannot be read.
-/

namespace SignalAccess

open Session Operation

/-- Where every run comes to an end, a run can be gone on with to a state without a next one. -/
theorem exists_last_of_acc {State : Type} {step : State → State → Prop} {first : State}
    (ends : Acc (fun later earlier => step earlier later) first) :
    ∃ last, Relation.ReflTransGen step first last ∧ ∀ next, ¬ step last next := by
  induction ends with
  | intro state _ inductionHypothesis =>
    by_cases stuck : ∃ next, step state next
    · obtain ⟨next, taken⟩ := stuck
      obtain ⟨last, rest, ended⟩ := inductionHypothesis next taken
      exact ⟨last, .head taken rest, ended⟩
    · exact ⟨state, .refl, fun next taken => stuck ⟨next, taken⟩⟩

namespace Exchange

variable {version stated : Version} {clientLimit serverLimit : UInt32}
variable {asked heard answered learned done rounds : List Round} {exchange : Exchange} {round : Round}

/-- The client has a number for each of the rounds that it asked for. -/
theorem Coherent.length_sent
    (coherent : Coherent version stated clientLimit serverLimit asked heard answered learned exchange) :
    exchange.sent.length = asked.length := by
  simp [coherent.sentIs]

/-- The server has requests for each of the rounds that it heard. -/
theorem Coherent.length_received
    (coherent : Coherent version stated clientLimit serverLimit asked heard answered learned exchange) :
    exchange.received.length = heard.length := by
  simp [coherent.receivedIs]

/-- The server has sent a reply in each of the rounds that it answered. -/
theorem Coherent.length_answered
    (coherent : Coherent version stated clientLimit serverLimit asked heard answered learned exchange) :
    exchange.answered.length = answered.length := by
  simp [coherent.answeredIs]

/-- The client has a reply for each of the rounds that it learned. -/
theorem Coherent.length_replies
    (coherent : Coherent version stated clientLimit serverLimit asked heard answered learned exchange) :
    exchange.replies.length = learned.length := by
  simp [coherent.repliesAre]

/-- The round behind those that are done. -/
theorem prefix_concat_of_getElem? (within : done <+: rounds)
    (next : rounds[done.length]? = some round) : done ++ [round] <+: rounds := by
  obtain ⟨coming, rfl⟩ := within
  rw [List.getElem?_append_right (Nat.le_refl _), Nat.sub_self] at next
  obtain ⟨later, rfl⟩ : ∃ later, coming = round :: later := by
    cases coming with
    | nil => cases next
    | cons first later =>
      cases next
      exact ⟨later, rfl⟩
  exact ⟨later, by simp⟩

/-- The round behind some of the rounds is the next one. -/
theorem getElem?_of_prefix_concat (within : done ++ [round] <+: rounds) :
    rounds[done.length]? = some round := by
  obtain ⟨later, rfl⟩ := within
  simp

/-- An exchange whose rounds fit is at some stage, and coherent there. -/
def Sound (version stated : Version) (clientLimit serverLimit : UInt32) (rounds : List Round)
    (exchange : Exchange) : Prop :=
  ∃ asked heard answered learned, Stage rounds asked heard answered learned ∧
    Coherent version stated clientLimit serverLimit asked heard answered learned exchange

/-- Every step leads from a stage to the same or the next one. An end whose frames have not arrived
is not decided, so it takes no step. -/
theorem Sound.step {next : Exchange}
    (sound : Sound version stated clientLimit serverLimit rounds exchange)
    (fits : ∀ round ∈ rounds, round.Fits version stated clientLimit serverLimit)
    (step : Step rounds exchange next) :
    Sound version stated clientLimit serverLimit rounds next := by
  obtain ⟨asked, heard, answered, learned, stage, coherent⟩ := sound
  have member {done : List Round} {round : Round} (within : done ++ [round] <+: rounds) :
      round ∈ rounds := within.subset (List.mem_append_right done List.mem_cons_self)
  cases step with
  | carryToServer some underWay =>
    exact ⟨asked, heard, answered, learned, stage, coherent.carryToServer some underWay⟩
  | carryToClient some underWay =>
    exact ⟨asked, heard, answered, learned, stage, coherent.carryToClient some underWay⟩
  | request turn next =>
    rw [coherent.length_sent] at next
    rw [coherent.length_sent, coherent.length_replies] at turn
    cases stage with
    | idle within =>
      have more := prefix_concat_of_getElem? within next
      exact ⟨_, _, _, _, .asked more, coherent.request (fits _ (member more))⟩
    | asked within => simp at turn
    | heard within => simp at turn
    | answered within => simp at turn
  | hear turn decided =>
    have nothing (same : asked = heard) :
        exchange.server.Receives serverLimit [] exchange.toServer := by
      subst same
      simpa using coherent.toServer
    rw [coherent.length_received, coherent.length_answered] at turn
    cases stage with
    | idle within =>
      have starved :=
        receiveRequests_starved coherent.serverRole coherent.serverVersion (nothing rfl)
      exact absurd decided starved.not_decided
    | asked within =>
      rcases coherent.hear (fits _ (member within)) with ⟨-, next⟩ | ⟨starved, -⟩
      · exact ⟨_, _, _, _, .heard within, next⟩
      · exact absurd decided starved.not_decided
    | heard within => simp at turn
    | answered within =>
      have starved :=
        receiveRequests_starved coherent.serverRole coherent.serverVersion (nothing rfl)
      exact absurd decided starved.not_decided
  | answer turn next =>
    rw [coherent.length_answered] at next
    rw [coherent.length_received, coherent.length_answered] at turn
    cases stage with
    | idle within => simp at turn
    | asked within => simp at turn
    | heard within =>
      rw [getElem?_of_prefix_concat within] at next
      cases next
      exact ⟨_, _, _, _, .answered within, coherent.answer (fits _ (member within))⟩
    | answered within => simp at turn
  | learn turn decided =>
    have nothing (same : answered = learned) :
        exchange.client.Receives clientLimit [] exchange.toClient := by
      subst same
      simpa using coherent.toClient
    rw [coherent.length_sent, coherent.length_replies] at turn
    cases stage with
    | idle within => simp at turn
    | asked within =>
      have starved := receiveReply_starved coherent.clientRole coherent.clientVersion (nothing rfl)
      exact absurd decided starved.not_decided
    | heard within =>
      have starved := receiveReply_starved coherent.clientRole coherent.clientVersion (nothing rfl)
      exact absurd decided starved.not_decided
    | answered within =>
      rcases coherent.learn (fits _ (member within)) with ⟨-, next⟩ | ⟨starved, -⟩
      · exact ⟨_, _, _, _, .idle within, next⟩
      · exact absurd decided starved.not_decided

/-- The number of rounds up to each point of a stage. -/
theorem Stage.lengths (stage : Stage rounds asked heard answered learned) :
    learned.length ≤ answered.length ∧ answered.length ≤ heard.length ∧
      heard.length ≤ asked.length ∧ asked.length ≤ learned.length + 1 ∧
      asked.length ≤ rounds.length := by
  cases stage with
  | idle within =>
    have bound := within.length_le
    omega
  | asked within | heard within | answered within =>
    have bound := within.length_le
    simp only [List.length_append, List.length_singleton] at bound ⊢
    omega

/-- What happened at each point of a stage happened to the first rounds. -/
theorem Stage.prefixes (stage : Stage rounds asked heard answered learned) :
    asked <+: rounds ∧ heard <+: rounds ∧ answered <+: rounds ∧ learned <+: rounds := by
  cases stage with
  | idle within => exact ⟨within, within, within, within⟩
  | asked within =>
    have before := (List.prefix_append _ _).trans within
    exact ⟨within, before, before, before⟩
  | heard within =>
    have before := (List.prefix_append _ _).trans within
    exact ⟨within, within, before, before⟩
  | answered within =>
    have before := (List.prefix_append _ _).trans within
    exact ⟨within, within, within, before⟩

/-- An exchange that is not complete takes a step: an end whose turn it is goes on, or what it waits
for is under way. -/
theorem Sound.complete_or_step
    (sound : Sound version stated clientLimit serverLimit rounds exchange)
    (fits : ∀ round ∈ rounds, round.Fits version stated clientLimit serverLimit) :
    exchange.replies.length = rounds.length ∨ ∃ next, Step rounds exchange next := by
  obtain ⟨asked, heard, answered, learned, stage, coherent⟩ := sound
  have member {done : List Round} {round : Round} (within : done ++ [round] <+: rounds) :
      round ∈ rounds := within.subset (List.mem_append_right done List.mem_cons_self)
  have sentLength := coherent.length_sent
  have receivedLength := coherent.length_received
  have answeredLength := coherent.length_answered
  have repliesLength := coherent.length_replies
  cases stage with
  | idle within =>
    cases coming : rounds[asked.length]? with
    | none =>
      have all := List.getElem?_eq_none_iff.mp coming
      have bound := within.length_le
      exact .inl (by omega)
    | some round =>
      refine .inr ⟨exchange.request round, .request (by omega) ?_⟩
      rwa [sentLength]
  | asked within =>
    right
    rcases coherent.hear (fits _ (member within)) with ⟨decided, -⟩ | ⟨-, waiting⟩
    · exact ⟨exchange.hear, .hear (by omega) decided⟩
    · exact ⟨_, .carryToServer waiting List.prefix_rfl⟩
  | @heard _ round within =>
    refine .inr ⟨exchange.answer round, .answer ?_ ?_⟩
    · rw [receivedLength, answeredLength, List.length_append, List.length_singleton]
    · rw [answeredLength]
      exact getElem?_of_prefix_concat within
  | answered within =>
    right
    rcases coherent.learn (fits _ (member within)) with ⟨decided, -⟩ | ⟨-, waiting⟩
    · refine ⟨exchange.learn, .learn ?_ decided⟩
      rw [sentLength, repliesLength, List.length_append, List.length_singleton]
    · exact ⟨_, .carryToClient waiting List.prefix_rfl⟩

/-- How many operations of an exchange are still to come. -/
def remaining (rounds : List Round) (exchange : Exchange) : Nat :=
  4 * rounds.length - (exchange.sent.length + exchange.received.length +
    exchange.answered.length + exchange.replies.length)

/-- How many bytes are under way. -/
def underWay (exchange : Exchange) : Nat := exchange.toServer.length + exchange.toClient.length

/-- A step completes an operation, or it leaves fewer bytes under way. -/
theorem Sound.step_decreases {next : Exchange}
    (sound : Sound version stated clientLimit serverLimit rounds exchange)
    (fits : ∀ round ∈ rounds, round.Fits version stated clientLimit serverLimit)
    (step : Step rounds exchange next) :
    next.remaining rounds < exchange.remaining rounds ∨
      next.remaining rounds = exchange.remaining rounds ∧ next.underWay < exchange.underWay := by
  obtain ⟨asked, heard, answered, learned, stage, coherent⟩ := sound.step fits step
  obtain ⟨_, _, _, _, bound⟩ := stage.lengths
  have sentLength := coherent.length_sent
  have receivedLength := coherent.length_received
  have answeredLength := coherent.length_answered
  have repliesLength := coherent.length_replies
  have shorter {piece stream : Bytes} {arrived : Nat} (some : piece ≠ [])
      (front : piece <+: stream.drop arrived) :
      (stream.drop (arrived + piece.length)).length < (stream.drop arrived).length := by
    have positive := List.length_pos_iff.mpr some
    have within := front.length_le
    rw [List.length_drop] at within ⊢
    rw [List.length_drop]
    omega
  cases step with
  | carryToServer some front => exact .inr ⟨rfl, Nat.add_lt_add_right (shorter some front) _⟩
  | carryToClient some front => exact .inr ⟨rfl, Nat.add_lt_add_left (shorter some front) _⟩
  | request turn next =>
    left
    simp only [Exchange.request, List.length_append, List.length_singleton, remaining] at *
    omega
  | hear turn decided =>
    left
    simp only [Exchange.hear, List.length_append, List.length_singleton, remaining] at *
    omega
  | answer turn next =>
    left
    simp only [Exchange.answer, List.length_append, List.length_singleton, remaining] at *
    omega
  | learn turn decided =>
    left
    simp only [Exchange.learn, List.length_append, List.length_singleton, remaining] at *
    omega

/-- Every run comes to an end, whatever the order of its steps: there are so many operations, and
between two of them only so many bytes can arrive. -/
theorem Sound.acc (sound : Sound version stated clientLimit serverLimit rounds exchange)
    (fits : ∀ round ∈ rounds, round.Fits version stated clientLimit serverLimit) :
    Acc (fun later earlier => Step rounds earlier later) exchange := by
  induction operations : exchange.remaining rounds using Nat.strongRecOn generalizing exchange with
  | _ operations fewerOperations =>
    induction bytes : exchange.underWay using Nat.strongRecOn generalizing exchange with
    | _ bytes fewerBytes =>
      refine Acc.intro exchange fun next step => ?_
      have soundNext := sound.step fits step
      rcases sound.step_decreases fits step with fewer | ⟨same, fewer⟩
      · exact fewerOperations _ (operations ▸ fewer) soundNext rfl
      · exact fewerBytes _ (bytes ▸ fewer) soundNext (same.trans operations) rfl

/-- Both ends are at rest behind their handshake. -/
theorem sound_opened {client : ClientState} {server : ServerState} {clientEnd serverEnd : Session}
    (handshake : Handshake client server clientLimit serverLimit clientEnd serverEnd)
    (rounds : List Round) :
    Sound (Version.negotiated client.version server.version) server.version clientLimit serverLimit
      rounds (opened clientEnd serverEnd) := by
  obtain ⟨clientSettled, stated, serverSettled⟩ := handshake.settled
  refine ⟨[], [], [], [], .idle List.nil_prefix, ?_⟩
  exact {
    clientRole := clientSettled.role
    clientVersion := clientSettled.version
    clientStated := stated
    clientWritable := clientSettled.writable
    clientNumber := clientSettled.sequence
    serverRole := serverSettled.role
    serverVersion := serverSettled.version
    serverWritable := serverSettled.writable
    serverNumber := serverSettled.sequence
    sentIs := rfl
    receivedIs := rfl
    answeredIs := rfl
    repliesAre := rfl
    toServer := by
      simpa [toServer, opened] using serverSettled.receives
    toClient := by
      simpa [toClient, opened] using clientSettled.receives
    atServer := Nat.le_refl _
    atClient := Nat.le_refl _ }

/-- An exchange that is sound stays so, whatever happens. -/
theorem Sound.run {next : Exchange}
    (sound : Sound version stated clientLimit serverLimit rounds exchange)
    (fits : ∀ round ∈ rounds, round.Fits version stated clientLimit serverLimit)
    (run : Relation.ReflTransGen (Step rounds) exchange next) :
    Sound version stated clientLimit serverLimit rounds next := by
  induction run with
  | refl => exact sound
  | tail _ step inductionHypothesis => exact inductionHypothesis.step fits step

/-- Every run can be gone on with until it is complete. -/
theorem Sound.exists_complete
    (sound : Sound version stated clientLimit serverLimit rounds exchange)
    (fits : ∀ round ∈ rounds, round.Fits version stated clientLimit serverLimit) :
    ∃ last, Relation.ReflTransGen (Step rounds) exchange last ∧
      ∀ next, ¬ Step rounds last next :=
  exists_last_of_acc (sound.acc fits)

/-- What the client has been given are the replies of the first rounds, as they are read. -/
theorem Sound.replies_of_rounds
    (sound : Sound version stated clientLimit serverLimit rounds exchange) :
    exchange.replies <+: rounds.map (·.learned version) := by
  obtain ⟨asked, heard, answered, learned, stage, coherent⟩ := sound
  rw [coherent.repliesAre]
  exact stage.prefixes.2.2.2.map _

/-- What both ends have been given is what was sent, in its order: the server the requests of the
rounds as they remain on the wire, and the client for each of them the state of the server as it
remains on the wire, and the data blocks unchanged. The requests are numbered one by one, starting
over behind the last number, and neither end is ahead of the other by more than one round. No
operation has failed. A run that cannot go on has completed all rounds, and every run comes to an
end. -/
structure Faithful (version : Version) (rounds : List Round) (exchange : Exchange) : Prop where
  sent : exchange.sent <+: (List.range rounds.length).map fun k => .ok (UInt32.ofNat (k + 1))
  received : exchange.received <+:
    rounds.map fun round => .ok (some (round.requests.onWire version))
  answered : exchange.answered <+: rounds.map fun _ => .ok ()
  replies : exchange.replies <+:
    rounds.map fun round => .ok (round.server.onWire version, round.blocks)
  inTurn : exchange.replies.length ≤ exchange.answered.length ∧
    exchange.answered.length ≤ exchange.received.length ∧
    exchange.received.length ≤ exchange.sent.length ∧
    exchange.sent.length ≤ exchange.replies.length + 1
  completes : (∀ next, ¬ Step rounds exchange next) → exchange.replies.length = rounds.length
  ends : Acc (fun later earlier => Step rounds earlier later) exchange

end Exchange

/-- The reply of a round whose objects are read back is read as it was. -/
theorem Round.learned_eq {version stated : Version} {clientLimit serverLimit : UInt32} {round : Round}
    (fits : round.Fits version stated clientLimit serverLimit)
    (objects : ∀ block ∈ round.blocks.blocks, block.ObjectReadBack) :
    round.learned version = .ok (round.server.onWire version, round.blocks) := by
  obtain ⟨payload, written, -⟩ := fits.blocks
  have read : BlockList.decode version payload = .ok round.blocks :=
    (BlockList.takes_encode objects written).whole _
  have bytes : (round.blocks.encode version).written = payload := by
    rw [written]
    rfl
  rw [learned, replyOutcome, bytes, read]
  rfl

/-- Rounds are delivered. Behind a handshake that succeeded, let the client send requests and receive
a reply in turn, any number of times, and let the server receive requests and reply in turn. Then in
every order of steps, and however the bytes are cut into pieces, no operation fails, nothing is lost
or paired with another request, and the run goes on until every round is complete. -/
theorem rounds_delivered {client : ClientState} {server : ServerState}
    {clientLimit serverLimit : UInt32} {clientEnd serverEnd : Session}
    (handshake : Handshake client server clientLimit serverLimit clientEnd serverEnd)
    {rounds : List Round}
    (fits : ∀ round ∈ rounds, round.Fits (Version.negotiated client.version server.version)
      server.version clientLimit serverLimit)
    (objects : ∀ round ∈ rounds, ∀ block ∈ round.blocks.blocks, block.ObjectReadBack)
    {exchange : Exchange}
    (run : Relation.ReflTransGen (Exchange.Step rounds) (.opened clientEnd serverEnd) exchange) :
    exchange.Faithful (Version.negotiated client.version server.version) rounds := by
  have sound := (Exchange.sound_opened handshake rounds).run fits run
  have replies := sound.replies_of_rounds
  have unchanged : rounds.map (·.learned (Version.negotiated client.version server.version)) =
      rounds.map fun round =>
        .ok (round.server.onWire (Version.negotiated client.version server.version), round.blocks) :=
    List.map_congr_left fun round member =>
      Round.learned_eq (fits round member) (objects round member)
  rw [unchanged] at replies
  have completes : (∀ next, ¬ Exchange.Step rounds exchange next) →
      exchange.replies.length = rounds.length := by
    intro ended
    rcases sound.complete_or_step fits with complete | ⟨next, step⟩
    · exact complete
    · exact absurd step (ended next)
  have ends := sound.acc fits
  obtain ⟨asked, heard, answered, learned, stage, coherent⟩ := sound
  obtain ⟨askedFirst, heardFirst, answeredFirst, -⟩ := stage.prefixes
  obtain ⟨learnedLe, answeredLe, heardLe, askedLe, -⟩ := stage.lengths
  refine ⟨?_, ?_, ?_, replies, ?_, completes, ends⟩
  · have first : List.range asked.length <+: List.range rounds.length := by
      have front := List.take_prefix asked.length (List.range rounds.length)
      rwa [List.take_range, Nat.min_eq_left askedFirst.length_le] at front
    rw [coherent.sentIs]
    exact first.map _
  · rw [coherent.receivedIs]
    exact heardFirst.map _
  · rw [coherent.answeredIs]
    exact answeredFirst.map _
  · rw [coherent.length_sent, coherent.length_received, coherent.length_answered,
      coherent.length_replies]
    exact ⟨learnedLe, answeredLe, heardLe, askedLe⟩

/-- A client of some version that states its system. -/
def ClientState.visitor (version : Version) : ClientState where
  version := version
  process := 42
  timeout := 600
  user := "jdoe".toList
  flags := 5
  alternativeRank := 2
  options := .none
  privateFlags := 7
  system := "linux".toList
  identifier := []

/-- A server of the latest version with one failure to report. -/
def ServerState.host : ServerState where
  version := .current
  errorCode := 1
  errorMessage := "lost".toList
  system := "linux".toList
  identifier := "10.1000/xyz".toList
  log := ⟨[⟨.reader, "read".toList, 1, "lost".toList⟩]⟩

/-- A request that writes, and whose subset does not travel. -/
def Request.measured : Request :=
  { blank with
    kind := .generic, pulse := 99999, signal := "Ip".toList, source := "99999".toList
    subsetText := "[0:2]".toList, put := true }

/-- A round with a graph as an object, and one without data. -/
def Round.samples : List Round :=
  [⟨⟨[.measured]⟩, .host, ⟨[.measured (.object .shot)]⟩⟩, ⟨⟨[.blank]⟩, .host, ⟨[.empty]⟩⟩]

/-- The two ends open a session, although the greeting arrives in two pieces. -/
theorem exists_handshake_visitor {version : Version} (either : version = 7 ∨ version = .current) :
    ∃ clientEnd serverEnd, Handshake (.visitor version) .host FrameHeader.standardLimit
      FrameHeader.standardLimit clientEnd serverEnd := by
  let greeting := ((helloMessage (.visitor version)).frame .client 0).encode
  let answer := ((stateMessage version .host).frame .server 0).encode
  have cut : [greeting.take 3, greeting.drop 3].flatten = greeting := by simp
  have whole : [answer].flatten = answer := by simp
  rcases either with rfl | rfl
  · exact exists_handshake rfl rfl ⟨.inl rfl, by decide⟩ ⟨.inr rfl, by decide⟩ (by decide) (by decide)
      whole cut
  · exact exists_handshake rfl rfl ⟨.inl rfl, by decide⟩ ⟨.inr rfl, by decide⟩ (by decide) (by decide)
      whole cut

set_option maxRecDepth 4000 in
/-- A client of version 7 and a server of version 8 complete two rounds. -/
theorem rounds_delivered_visitor :
    ∃ clientEnd serverEnd exchange,
      Handshake (.visitor 7) .host FrameHeader.standardLimit FrameHeader.standardLimit
        clientEnd serverEnd ∧
      Relation.ReflTransGen (Exchange.Step Round.samples) (.opened clientEnd serverEnd) exchange ∧
      exchange.replies.length = 2 ∧ exchange.Faithful 7 Round.samples := by
  obtain ⟨clientEnd, serverEnd, handshake⟩ := exists_handshake_visitor (.inl rfl)
  have fits : ∀ round ∈ Round.samples,
      round.Fits 7 .current FrameHeader.standardLimit FrameHeader.standardLimit := by
    intro round member
    simp only [Round.samples, List.mem_cons, List.not_mem_nil, or_false] at member
    rcases member with rfl | rfl
    · exact ⟨⟨_, rfl, by decide⟩, ⟨_, rfl, by decide⟩, ⟨_, rfl, by decide⟩, rfl⟩
    · exact ⟨⟨_, rfl, by decide⟩, ⟨_, rfl, by decide⟩, ⟨_, rfl, by decide⟩, rfl⟩
  have objects : ∀ round ∈ Round.samples, ∀ block ∈ round.blocks.blocks, block.ObjectReadBack := by
    intro round member block inRound
    simp only [Round.samples, List.mem_cons, List.not_mem_nil, or_false] at member
    rcases member with rfl | rfl
    · obtain rfl := List.mem_singleton.mp inRound
      rintro _ ⟨rfl⟩
      rfl
    · obtain rfl := List.mem_singleton.mp inRound
      rintro _ ⟨⟩
  obtain ⟨exchange, run, ended⟩ :=
    (Exchange.sound_opened handshake Round.samples).exists_complete fits
  have faithful := rounds_delivered handshake fits objects run
  exact ⟨clientEnd, serverEnd, exchange, handshake, run, faithful.completes ended, faithful⟩

/-- A round whose reply is an object in which structures lie at some depth. -/
def Round.nested (depth : Nat) : Round :=
  ⟨⟨[.blank]⟩, .host, ⟨[.ofPackage (.object (.nested depth))]⟩⟩

/-- Not every reply that can be sent is delivered: an object whose structures lie 345 deep is
written and sent, but the client fails to read it. -/
theorem not_forall_rounds_delivered :
    ¬ ∀ (client : ClientState) (server : ServerState) (clientLimit serverLimit : UInt32)
      (clientEnd serverEnd : Session),
      Handshake client server clientLimit serverLimit clientEnd serverEnd →
      ∀ rounds : List Round,
        (∀ round ∈ rounds, round.Fits (Version.negotiated client.version server.version)
          server.version clientLimit serverLimit) →
        ∀ exchange,
          Relation.ReflTransGen (Exchange.Step rounds) (.opened clientEnd serverEnd) exchange →
          exchange.Faithful (Version.negotiated client.version server.version) rounds := by
  intro claim
  obtain ⟨clientEnd, serverEnd, handshake⟩ := exists_handshake_visitor (.inr rfl)
  have size := StructureGraph.length_toObject_nested 345
  obtain ⟨bytes, written, length⟩ :=
    BlockList.encode_object (.nested 345) (by rw [size]; decide)
  have fits : ∀ round ∈ [Round.nested 345],
      round.Fits .current .current FrameHeader.standardLimit FrameHeader.standardLimit := by
    intro round member
    obtain rfl := List.mem_singleton.mp member
    refine ⟨⟨_, rfl, by decide⟩, ⟨_, rfl, by decide⟩, ⟨bytes, written, ?_⟩, rfl⟩
    rw [length, size]
    decide
  have sound := Exchange.sound_opened handshake [Round.nested 345]
  obtain ⟨exchange, run, ended⟩ := sound.exists_complete fits
  have faithful := claim _ _ _ _ _ _ handshake _ fits exchange run
  have complete := faithful.completes ended
  have claimed := faithful.replies.eq_of_length (by simp [complete])
  have given := (sound.run fits run).replies_of_rounds.eq_of_length (by simp [complete])
  have learned : (Round.nested 345).learned .current =
      .ok (ServerState.host.onWire .current, (Round.nested 345).blocks) :=
    List.head_eq_of_cons_eq (given.symm.trans claimed)
  have read : BlockList.decode .current bytes = .ok (Round.nested 345).blocks := by
    have carried : ((Round.nested 345).blocks.encode .current).written = bytes := by
      rw [Round.nested, written]
      rfl
    rw [Round.learned, replyOutcome, carried] at learned
    cases decoded : BlockList.decode .current bytes with
    | error failure =>
      rw [decoded] at learned
      cases learned
    | ok list =>
      rw [decoded] at learned
      exact congrArg Except.ok (Prod.mk.inj (Except.ok.inj learned)).2
  have shallow := BlockList.withinLevels_of_decode read _ List.mem_cons_self _ rfl
  rw [Package.WithinLevels, StructureGraph.nestingAll_nested] at shallow
  exact absurd shallow (by decide)

end SignalAccess

import Mathlib.Logic.Relation
import SignalAccess.Proofs.Session.Handshake

/-!
# Exchanges

Behind a handshake the client alternates between sending requests and receiving replies, and the
server between receiving requests and replying. Both ends take their steps in any order that their
turns allow, while the bytes of either direction arrive in pieces of any size. An end that waits for
frames goes on when what has arrived decides its operation.

The requests of a round are under way from the moment they are sent until they are received, and so
are the frames of a reply. Four stages follow each other in every round: nothing is under way, the
requests are, the server is at work, the reply is. The invariant of an exchange says, for each stage,
what both ends have been given so far and which frames each of them is going to get.
-/

namespace SignalAccess

open Session Operation

/-- What a client asks for in one round, and what the server replies. -/
structure Round where
  requests : RequestBlock
  server : ServerState
  blocks : BlockList

/-- Two ends of a connection, how many of the bytes that each of them wrote have arrived at the other
one, and what their operations have given. -/
structure Exchange where
  client : Session
  server : Session
  /-- The bytes of the client that have arrived. -/
  atServer : Nat
  /-- The bytes of the server that have arrived. -/
  atClient : Nat
  sent : List (Except Failure UInt32)
  received : List (Except Failure (Option RequestBlock))
  answered : List (Except Failure Unit)
  replies : List (Except Failure (ServerState × BlockList))

namespace Session.Operation

variable {α : Type}

/-- What an operation gives. -/
def outcome (operation : Operation α) (session : Session) : Except Failure α :=
  match operation session with
  | .ok value _ => .ok value
  | .error failure _ => .error failure

/-- The session that an operation leaves. -/
def after (operation : Operation α) (session : Session) : Session :=
  match operation session with
  | .ok _ next => next
  | .error _ next => next

/-- The outcome of an operation is what it results in. -/
theorem outcome_of_eq {operation : Operation α} {session next : Session}
    {result : Except Failure α} (done : operation session = resulting result next) :
    operation.outcome session = result := by
  cases result <;> simp [outcome, done, resulting]

/-- The session behind an operation is the one that it results in. -/
theorem after_of_eq {operation : Operation α} {session next : Session}
    {result : Except Failure α} (done : operation session = resulting result next) :
    operation.after session = next := by
  cases result <;> simp [after, done, resulting]

end Session.Operation

namespace Exchange

/-- Both ends behind their handshake. Everything that was written has arrived. -/
def opened (client server : Session) : Exchange :=
  ⟨client, server, client.connection.written.length, server.connection.written.length, [], [], [], []⟩

/-- The bytes under way to the server. -/
def toServer (exchange : Exchange) : Bytes :=
  exchange.client.connection.written.drop exchange.atServer

/-- The bytes under way to the client. -/
def toClient (exchange : Exchange) : Bytes :=
  exchange.server.connection.written.drop exchange.atClient

/-- A piece arrives at the server. -/
def carryToServer (piece : Bytes) (exchange : Exchange) : Exchange :=
  { exchange with
    server := exchange.server.arriving [.piece piece]
    atServer := exchange.atServer + piece.length }

/-- A piece arrives at the client. -/
def carryToClient (piece : Bytes) (exchange : Exchange) : Exchange :=
  { exchange with
    client := exchange.client.arriving [.piece piece]
    atClient := exchange.atClient + piece.length }

/-- The client sends the requests of a round. -/
def request (round : Round) (exchange : Exchange) : Exchange :=
  { exchange with
    client := (sendRequests round.requests).after exchange.client
    sent := exchange.sent ++ [(sendRequests round.requests).outcome exchange.client] }

/-- The server receives requests. -/
def hear (exchange : Exchange) : Exchange :=
  { exchange with
    server := receiveRequests.after exchange.server
    received := exchange.received ++ [receiveRequests.outcome exchange.server] }

/-- The server sends the reply of a round. -/
def answer (round : Round) (exchange : Exchange) : Exchange :=
  { exchange with
    server := (sendReply round.blocks round.server).after exchange.server
    answered := exchange.answered ++
      [(sendReply round.blocks round.server).outcome exchange.server] }

/-- The client receives a reply. -/
def learn (exchange : Exchange) : Exchange :=
  { exchange with
    client := receiveReply.after exchange.client
    replies := exchange.replies ++ [receiveReply.outcome exchange.client] }

/-- What can happen next. Any piece of the bytes under way may arrive. Each end takes its turns: the
client sends requests when it has a reply to each that it sent, the server replies when it has not
replied yet to requests that it received. An end that waits goes on when its operation is decided,
whether it succeeds or not. -/
inductive Step (rounds : List Round) : Exchange → Exchange → Prop where
  | carryToServer {exchange : Exchange} {piece : Bytes} (some : piece ≠ [])
      (underWay : piece <+: exchange.toServer) : Step rounds exchange (exchange.carryToServer piece)
  | carryToClient {exchange : Exchange} {piece : Bytes} (some : piece ≠ [])
      (underWay : piece <+: exchange.toClient) : Step rounds exchange (exchange.carryToClient piece)
  | request {exchange : Exchange} {round : Round}
      (turn : exchange.sent.length = exchange.replies.length)
      (next : rounds[exchange.sent.length]? = some round) :
      Step rounds exchange (exchange.request round)
  | hear {exchange : Exchange} (turn : exchange.received.length = exchange.answered.length)
      (decided : receiveRequests.Decided exchange.server) : Step rounds exchange exchange.hear
  | answer {exchange : Exchange} {round : Round}
      (turn : exchange.received.length = exchange.answered.length + 1)
      (next : rounds[exchange.answered.length]? = some round) :
      Step rounds exchange (exchange.answer round)
  | learn {exchange : Exchange} (turn : exchange.sent.length = exchange.replies.length + 1)
      (decided : receiveReply.Decided exchange.client) : Step rounds exchange exchange.learn

end Exchange

namespace Round

/-- A round whose messages can be written for a version, and keep to the limits of the ends that read
them. The server is still that of the handshake. -/
structure Fits (version stated : Version) (clientLimit serverLimit : UInt32) (round : Round) :
    Prop where
  requests : ∃ payload, round.requests.encode version = .ok payload ∧
    payload.length ≤ serverLimit.toNat
  server : ∃ payload, round.server.encode version = .ok payload ∧
    payload.length ≤ clientLimit.toNat
  blocks : ∃ payload, round.blocks.encode version = .ok payload ∧
    payload.length ≤ clientLimit.toNat
  stated : round.server.version = stated

/-- The frame in which the requests of a round travel. -/
def requestFrame (version : Version) (number : UInt32) (round : Round) : Frame :=
  (requestMessage version round.requests).frame .client number

/-- The frames in which the reply of a round travels. -/
def replyFrames (version : Version) (number : UInt32) (round : Round) : List Frame :=
  [(stateMessage version round.server).frame .server number,
    (blocksMessage version round.server round.blocks).frame .server number]

/-- What the server is given in a round. -/
def heard (version : Version) (round : Round) : Except Failure (Option RequestBlock) :=
  .ok (some (round.requests.onWire version))

/-- What the client is given in a round. -/
def learned (version : Version) (round : Round) : Except Failure (ServerState × BlockList) :=
  replyOutcome version round.server round.blocks

variable {version stated : Version} {clientLimit serverLimit : UInt32} {round : Round}

/-- The requests of a round that fits fit a frame to the server. -/
theorem Fits.requestMessage (fits : round.Fits version stated clientLimit serverLimit) :
    (requestMessage version round.requests).Fits serverLimit := by
  obtain ⟨payload, written, within⟩ := fits.requests
  refine ⟨.inl rfl, ?_⟩
  simpa [Session.requestMessage, written, Encoding.written, Except.toOption] using within

/-- The state in the reply of a round that fits fits a frame to the client. -/
theorem Fits.stateMessage (fits : round.Fits version stated clientLimit serverLimit) :
    (stateMessage version round.server).Fits clientLimit := by
  obtain ⟨payload, written, within⟩ := fits.server
  refine ⟨replyFlags_cases round.server, ?_⟩
  simpa [Session.stateMessage, written, Encoding.written, Except.toOption] using within

/-- The data blocks in the reply of a round that fits fit a frame to the client. -/
theorem Fits.blocksMessage (fits : round.Fits version stated clientLimit serverLimit) :
    (blocksMessage version round.server round.blocks).Fits clientLimit := by
  obtain ⟨payload, written, within⟩ := fits.blocks
  refine ⟨replyFlags_cases round.server, ?_⟩
  simpa [Session.blocksMessage, written, Encoding.written, Except.toOption] using within

/-- Both frames of a reply are admitted. -/
theorem Fits.admitted_replyFrames (fits : round.Fits version stated clientLimit serverLimit)
    (number : UInt32) : ∀ frame ∈ round.replyFrames version number, frame.Admitted clientLimit := by
  intro frame member
  simp only [replyFrames, List.mem_cons, List.not_mem_nil, or_false] at member
  rcases member with rfl | rfl
  · exact fits.stateMessage.admitted _ _
  · exact fits.blocksMessage.admitted _ _

end Round

namespace Exchange

variable {version stated : Version} {clientLimit serverLimit : UInt32}

/-- What both ends have been given, and what they are going to get, when the client has sent some of
the rounds, the server has received and answered some of these, and the client has received the
replies of some of those. -/
structure Coherent (version stated : Version) (clientLimit serverLimit : UInt32)
    (asked heard answered learned : List Round) (exchange : Exchange) : Prop where
  clientRole : exchange.client.role = .client
  clientVersion : exchange.client.version = some version
  clientStated : exchange.client.serverVersion = stated
  clientWritable : exchange.client.connection.writeFailure = none
  clientNumber : exchange.client.sequence = UInt32.ofNat asked.length
  serverRole : exchange.server.role = .server
  serverVersion : exchange.server.version = some version
  serverWritable : exchange.server.connection.writeFailure = none
  serverNumber : exchange.server.sequence = UInt32.ofNat heard.length
  sentIs : exchange.sent = (List.range asked.length).map fun k => .ok (UInt32.ofNat (k + 1))
  receivedIs : exchange.received = heard.map (·.heard version)
  answeredIs : exchange.answered = answered.map fun _ => .ok ()
  repliesAre : exchange.replies = learned.map (·.learned version)
  toServer : exchange.server.Receives serverLimit
    ((asked.drop heard.length).map (·.requestFrame version (UInt32.ofNat asked.length)))
    exchange.toServer
  toClient : exchange.client.Receives clientLimit
    ((answered.drop learned.length).flatMap (·.replyFrames version (UInt32.ofNat answered.length)))
    exchange.toClient
  atServer : exchange.atServer ≤ exchange.client.connection.written.length
  atClient : exchange.atClient ≤ exchange.server.connection.written.length

/-- The stages of an exchange: nothing is under way; the requests of a round are; the server is at
work on them; the reply is under way. -/
inductive Stage (rounds : List Round) :
    (asked heard answered learned : List Round) → Prop where
  | idle {done : List Round} (within : done <+: rounds) : Stage rounds done done done done
  | asked {done : List Round} {round : Round} (within : done ++ [round] <+: rounds) :
    Stage rounds (done ++ [round]) done done done
  | heard {done : List Round} {round : Round} (within : done ++ [round] <+: rounds) :
    Stage rounds (done ++ [round]) (done ++ [round]) done done
  | answered {done : List Round} {round : Round} (within : done ++ [round] <+: rounds) :
    Stage rounds (done ++ [round]) (done ++ [round]) (done ++ [round]) done

variable {asked heard answered learned done rounds : List Round} {exchange : Exchange} {round : Round}

/-- A piece that arrives leaves the rest of the stream under way. -/
theorem drop_eq_piece_append {piece stream : Bytes} {arrived : Nat}
    (within : arrived ≤ stream.length) (underWay : piece <+: stream.drop arrived) :
    stream.drop arrived = piece ++ stream.drop (arrived + piece.length) ∧
      arrived + piece.length ≤ stream.length := by
  obtain ⟨rest, split⟩ := underWay
  constructor
  · have left := congrArg (List.drop piece.length) split
    rw [List.drop_left, List.drop_drop] at left
    rw [← left]
    exact split.symm
  · have lengths := congrArg List.length split
    rw [List.length_append, List.length_drop] at lengths
    omega

/-- A piece that arrives at the server is no longer under way, and changes nothing else. -/
theorem Coherent.carryToServer
    (coherent : Coherent version stated clientLimit serverLimit asked heard answered learned exchange)
    {piece : Bytes} (some : piece ≠ []) (underWay : piece <+: exchange.toServer) :
    Coherent version stated clientLimit serverLimit asked heard answered learned
      (exchange.carryToServer piece) := by
  obtain ⟨split, enough⟩ := drop_eq_piece_append coherent.atServer underWay
  have stream := coherent.toServer
  rw [Exchange.toServer, split] at stream
  exact { coherent with toServer := stream.arrive some, atServer := enough }

/-- A piece that arrives at the client is no longer under way, and changes nothing else. -/
theorem Coherent.carryToClient
    (coherent : Coherent version stated clientLimit serverLimit asked heard answered learned exchange)
    {piece : Bytes} (some : piece ≠ []) (underWay : piece <+: exchange.toClient) :
    Coherent version stated clientLimit serverLimit asked heard answered learned
      (exchange.carryToClient piece) := by
  obtain ⟨split, enough⟩ := drop_eq_piece_append coherent.atClient underWay
  have stream := coherent.toClient
  rw [Exchange.toClient, split] at stream
  exact { coherent with toClient := stream.arrive some, atClient := enough }

/-- With nothing under way the client sends the requests of the next round. -/
theorem Coherent.request
    (coherent : Coherent version stated clientLimit serverLimit done done done done exchange)
    (fits : round.Fits version stated clientLimit serverLimit) :
    Coherent version stated clientLimit serverLimit (done ++ [round]) done done done
      (exchange.request round) := by
  obtain ⟨payload, written, -⟩ := fits.requests
  have number : exchange.client.sequence + 1 = UInt32.ofNat (done ++ [round]).length := by
    rw [coherent.clientNumber, List.length_append, UInt32.ofNat_add]
    rfl
  have sentNow := sendRequests_eq coherent.clientRole coherent.clientVersion
    coherent.clientWritable written fits.requestMessage
  rw [number] at sentNow
  let frame := round.requestFrame version (UInt32.ofNat (done ++ [round]).length)
  let client : Session :=
    ({ exchange.client with sequence := UInt32.ofNat (done ++ [round]).length } : Session).writing
      frame.encode
  have now : exchange.request round = { exchange with
      client := client
      sent := exchange.sent ++ [.ok (UInt32.ofNat (done ++ [round]).length)] } := by
    simp only [Exchange.request, outcome, after, sentNow]
    rfl
  have underWay : client.connection.written.drop exchange.atServer =
      exchange.toServer ++ [frame].flatMap Frame.encode := by
    simp only [client, writing, List.drop_append_of_le_length coherent.atServer]
    simp [Exchange.toServer]
  have stream := coherent.toServer.send fun other member => by
    rw [List.mem_singleton.mp member]
    exact fits.requestMessage.admitted .client (UInt32.ofNat (done ++ [round]).length)
  rw [now]
  exact {
    coherent with
    clientRole := coherent.clientRole
    clientNumber := rfl
    sentIs := by simp [coherent.sentIs, List.range_succ]
    toServer := by
      rw [Exchange.toServer, underWay]
      simpa [frame, Round.requestFrame] using stream
    atServer := by
      have within := coherent.atServer
      simp only [client, writing, List.length_append]
      omega }

/-- While requests are under way the server receives them, as they remain on the wire, if what has
arrived decides that. Otherwise it is starved, and something has not arrived. -/
theorem Coherent.hear
    (coherent : Coherent version stated clientLimit serverLimit (done ++ [round]) done done done
      exchange)
    (fits : round.Fits version stated clientLimit serverLimit) :
    (receiveRequests.Decided exchange.server ∧
      Coherent version stated clientLimit serverLimit (done ++ [round]) (done ++ [round]) done done
        exchange.hear) ∨
    (receiveRequests.Starved exchange.server ∧ exchange.toServer ≠ []) := by
  obtain ⟨payload, written, -⟩ := fits.requests
  have stream : exchange.server.Receives serverLimit
      [round.requestFrame version (UInt32.ofNat (done ++ [round]).length)] exchange.toServer := by
    simpa using coherent.toServer
  rcases receiveRequests_cases coherent.serverRole coherent.serverVersion written
    fits.requestMessage stream with ⟨arrivals, buffer, pending, gives, rest⟩ | waiting
  · let server : Session := { exchange.server.reading arrivals buffer pending with
      sequence := UInt32.ofNat (done ++ [round]).length }
    have now : exchange.hear = { exchange with
        server := server
        received := exchange.received ++ [round.heard version] } := by
      simp only [Exchange.hear, outcome, after, gives.eq]
      rfl
    refine .inl ⟨gives.decided, ?_⟩
    rw [now]
    exact {
      coherent with
      serverRole := coherent.serverRole
      serverNumber := rfl
      receivedIs := by simp [coherent.receivedIs]
      toServer := by
        rw [List.drop_length]
        exact rest }
  · exact .inr waiting

/-- A server that has received requests replies to them. -/
theorem Coherent.answer
    (coherent : Coherent version stated clientLimit serverLimit (done ++ [round]) (done ++ [round])
      done done exchange)
    (fits : round.Fits version stated clientLimit serverLimit) :
    Coherent version stated clientLimit serverLimit (done ++ [round]) (done ++ [round])
      (done ++ [round]) done (exchange.answer round) := by
  obtain ⟨state, stateWritten, -⟩ := fits.server
  obtain ⟨blocks, blocksWritten, -⟩ := fits.blocks
  have sentNow := sendReply_eq coherent.serverRole coherent.serverVersion coherent.serverWritable
    stateWritten blocksWritten fits.stateMessage fits.blocksMessage
  let frames := round.replyFrames version (UInt32.ofNat (done ++ [round]).length)
  let server : Session := exchange.server.writing (frames.flatMap Frame.encode)
  have now : exchange.answer round = { exchange with
      server := server
      answered := exchange.answered ++ [.ok ()] } := by
    rw [coherent.serverNumber] at sentNow
    simp only [Exchange.answer, outcome, after, sentNow]
    rfl
  have underWay : server.connection.written.drop exchange.atClient =
      exchange.toClient ++ frames.flatMap Frame.encode := by
    simp only [server, writing, List.drop_append_of_le_length coherent.atClient]
    rfl
  have stream := coherent.toClient.send
    (fits.admitted_replyFrames (UInt32.ofNat (done ++ [round]).length))
  rw [now]
  exact {
    coherent with
    serverRole := coherent.serverRole
    answeredIs := by simp [coherent.answeredIs]
    toClient := by
      rw [Exchange.toClient, underWay]
      simpa [frames] using stream
    atClient := by
      have within := coherent.atClient
      simp only [server, writing, List.length_append]
      omega }

/-- While a reply is under way the client is given what it is read as, if what has arrived decides
that. Otherwise the client is starved, and something has not arrived. -/
theorem Coherent.learn
    (coherent : Coherent version stated clientLimit serverLimit (done ++ [round]) (done ++ [round])
      (done ++ [round]) done exchange)
    (fits : round.Fits version stated clientLimit serverLimit) :
    (receiveReply.Decided exchange.client ∧
      Coherent version stated clientLimit serverLimit (done ++ [round]) (done ++ [round])
        (done ++ [round]) (done ++ [round]) exchange.learn) ∨
    (receiveReply.Starved exchange.client ∧ exchange.toClient ≠ []) := by
  obtain ⟨state, stateWritten, -⟩ := fits.server
  have stream : exchange.client.Receives clientLimit
      (round.replyFrames version (UInt32.ofNat (done ++ [round]).length)) exchange.toClient := by
    simpa using coherent.toClient
  rcases receiveReply_cases coherent.clientRole coherent.clientVersion coherent.clientNumber
    (coherent.clientStated.trans fits.stated.symm) stateWritten fits.stateMessage fits.blocksMessage
    stream with ⟨arrivals, buffer, pending, gives, rest⟩ | waiting
  · have now : exchange.learn = { exchange with
        client := exchange.client.reading arrivals buffer pending
        replies := exchange.replies ++ [round.learned version] } := by
      simp only [Exchange.learn, outcome_of_eq gives.eq, after_of_eq gives.eq]
      rfl
    refine .inl ⟨gives.decided, ?_⟩
    rw [now]
    exact {
      coherent with
      clientRole := coherent.clientRole
      repliesAre := by simp [coherent.repliesAre]
      toClient := by
        rw [List.drop_length]
        exact rest }
  · exact .inr waiting

end Exchange

end SignalAccess

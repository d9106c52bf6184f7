import Mathlib.Logic.Function.Basic
import AsciiPoker.Client.PokerUI
import AsciiPoker.Library.Mailbox
import AsciiPoker.Server.Lobby.Seating

/-
  A game as it is played: one room with its session, any
  number of clients, and between them channels that deliver
  everything in the order in which it was sent.

  The server takes up what the clients send as
  `LobbyMessageProcessor` does; the room list that the lobby
  sends after a departure changes nothing here and is left
  out.  A client acts, leaves the room or loses his
  connection at any time, and the two ends of each channel
  are served in any order.

  Main declarations:
    * `Request`, `Play`
    * `Play.handle`, `Play.step`
    * `Play.Opening`, `Play.Run`
-/

------------------------------------------------------------
-- The Parties and Their Channels
------------------------------------------------------------

namespace Poker

open Protocol Server Client

/- What a client sends; `closed` is the end of the stream. -/
inductive Request
  | playerAction (msg : PlayerAction)
  | leaveRoom
  | closed
  deriving DecidableEq, Repr

/-
  The world's outbox is empty between two calls of the room.
-/
structure Play where
  room : Room
  world : World
  clients : ConnId → PokerUI
  online : ConnId → Bool
  inbox : ConnId → List ServerMessage
  requests : ConnId → List Request

namespace Play

/- What the server was told to send is on its way. -/
def dispatch
    (play : Play)
    (room : Room)
    (world : World) : Play :=
  { play with
    room := room
    world := { world with outbox := [] }
    inbox := fun c =>
      play.inbox c ++ Mailbox.picked some c world.outbox }

/- A client sends a request. -/
def post
    (play : Play)
    (client : ConnId)
    (request : Request) : Play :=
  { play with
    requests := Function.update play.requests client
      (play.requests client ++ [request]) }

/- A client is in another state. -/
def setClient
    (play : Play)
    (client : ConnId)
    (ui : PokerUI) : Play :=
  { play with
    clients := Function.update play.clients client ui }

------------------------------------------------------------
-- The Server
------------------------------------------------------------

/- `LeftRoom`, as a `LeaveRoom` message is answered. -/
def leftRoom
    (roomId : UInt64)
    (world : World)
    (client : ConnId) : LeftRoom :=
  let user := world.repository.bind fun users =>
    users.findByUsername (world.names client)
  { roomId := roomId
    yourChips := (user.map UserRecord.chips).getD 0
    hasYourChips := user.isSome }

/- What the server does with a request. -/
def handle
    (play : Play)
    (client : ConnId)
    (shuffles : List Shuffle) :
    Request → Except Exn (Room × World)
| .playerAction msg =>
    if client ∈ play.room.players then
      play.room.onPlayerAction play.world client msg.action
        msg.amount shuffles
    else
      .ok (play.room, play.world.send client
        (.error (makeError .notInRoom "")))
| .leaveRoom => do
    let roomId :=
      if client ∈ play.room.players then play.room.id else 0
    let (_, room, world) ←
      play.room.removePlayer play.world client shuffles
    .ok (room, world.send client
      (.leftRoom (leftRoom roomId world client)))
| .closed => do
    let (_, room, world) ←
      play.room.removePlayer play.world client shuffles
    .ok (room, world)

/- The server takes up the first request of a client. -/
def serve
    (play : Play)
    (client : ConnId)
    (shuffles : List Shuffle) : Except Exn Play :=
  match play.requests client with
  | [] => .error .notEnabled
  | request :: rest => do
      let (room, world) ←
        play.handle client shuffles request
      .ok ({ play with
        requests := Function.update play.requests client
          rest }.dispatch room world)

------------------------------------------------------------
-- The Clients
------------------------------------------------------------

/- A client processes the first message to him. -/
def deliver
    (play : Play)
    (client : ConnId) : Except Exn Play :=
  match play.inbox client with
  | [] => .error .notEnabled
  | msg :: rest =>
      .ok { play.setClient client
          ((play.clients client).addServerMessage msg) with
        inbox := Function.update play.inbox client rest }

/- A user acts; the action is sent if it is on offer. -/
def act
    (play : Play)
    (client : ConnId)
    (action : Action)
    (amount : Option UInt32) : Play :=
  match (play.clients client).sendAction action with
  | none => play
  | some ui =>
      (play.setClient client ui).post client
        (.playerAction ⟨action, amount⟩)

/- The connection of a client is lost. -/
def hangUp
    (play : Play)
    (client : ConnId) : Play :=
  { play.setClient client
      ((play.clients client).onConnectionChanged
        .disconnected) with
    online := Function.update play.online client false
    }.post client .closed

inductive Move
  | act
      (client : ConnId)
      (action : Action)
      (amount : Option UInt32)
  | leave (client : ConnId)
  | hangUp (client : ConnId)
  | deliver (client : ConnId)
  | serve
      (client : ConnId)
      (shuffles : List Shuffle)

/- One move; a client without a connection makes none. -/
def step
    (play : Play) : Move → Except Exn Play
| .act client action amount =>
    if play.online client then
      .ok (play.act client action amount)
    else
      .error .notEnabled
| .leave client =>
    if play.online client then
      .ok (play.post client .leaveRoom)
    else
      .error .notEnabled
| .hangUp client =>
    if play.online client then
      .ok (play.hangUp client)
    else
      .error .notEnabled
| .deliver client =>
    if play.online client then
      play.deliver client
    else
      .error .notEnabled
| .serve client shuffles => play.serve client shuffles

------------------------------------------------------------
-- Runs
------------------------------------------------------------

/- A client whom nobody has told of a game. -/
def waiting
    (world : World)
    (client : ConnId) : PokerUI where
  state := {
    screen := .waitingRoom
    connection := .connected
    playerName := world.names client }

/- Everybody waits for the game that the host starts. -/
def start
    (room : Room)
    (world : World)
    (shuffles : List Shuffle) : Except Exn Play := do
  let (error, started, after) ←
    room.tryStartGame { world with outbox := [] } room.host
      shuffles
  match error with
  | some _ => .error .notEnabled
  | none =>
      let play : Play := {
        room := room
        world := world
        clients := waiting world
        online := fun _ => true
        inbox := fun _ => []
        requests := fun _ => [] }
      .ok (play.dispatch started after)

/- A game was just started in a room as the lobby keeps it. -/
def Opening
    (play : Play) : Prop :=
  ∃ room world shuffles,
    room.InOrder ∧ start room world shuffles = .ok play

/- The moves in `trace` lead from a new game to `play`. -/
def Run
    (trace : List (Play × Move))
    (play : Play) : Prop :=
  ∃ opening : Play, opening.Opening ∧
    Transition.Run step opening trace play

end Play

end Poker

import AsciiPoker.Server.Lobby.Lobby

/-
  What a connection asks of the lobby
  (`lobby_message_processor.cpp`).

  Main declarations:
    * `Lobby.send`, `Lobby.sendError`
    * `Lobby.processClientMessage`
    * `Lobby.onDisconnect`
-/

namespace Poker

namespace Server

open Protocol

namespace Lobby

------------------------------------------------------------
-- Answers
------------------------------------------------------------

/- `connection->send(msg)`. -/
def send
    (lobby : Lobby)
    (connection : ConnId)
    (msg : ServerMessage) : Lobby :=
  { lobby with world := lobby.world.send connection msg }

/- Answer a connection with an error. -/
def sendError
    (lobby : Lobby)
    (connection : ConnId)
    (code : ErrorCode)
    (detail : String) : Lobby :=
  lobby.send connection (.error (makeError code detail))

/- Answer with an error if a call returned one. -/
def answer
    (lobby : Lobby)
    (connection : ConnId) : Option ErrorCode → Lobby
| none => lobby
| some code => lobby.sendError connection code ""

------------------------------------------------------------
-- Requests
------------------------------------------------------------

/- A `CreateRoom` message. -/
def onCreateRoom
    (lobby : Lobby)
    (msg : CreateRoom)
    (connection : ConnId)
    (draws : Draws) : Except Exn Lobby :=
  if msg.maxPlayers < 2 then
    .ok (lobby.sendError connection .invalidMaxPlayers "")
  else
    match lobby.checkPlayerBankroll connection with
    | some code => .ok (lobby.sendError connection code "")
    | none =>
        (lobby.createRoom msg.roomName msg.maxPlayers
          connection draws).map Prod.snd

/- A `JoinRoom` message. -/
def onJoinRoom
    (lobby : Lobby)
    (msg : JoinRoom)
    (connection : ConnId)
    (draws : Draws) : Except Exn Lobby := do
  let (error, lobby) ←
    lobby.joinRoom msg.roomId connection draws
  .ok (lobby.answer connection error)

/- The id of the room a player is in, or 0. -/
def presentRoomId
    (lobby : Lobby)
    (player : ConnId) : Except Exn UInt64 :=
  match lobby.findRoomByPlayer player with
  | none => .ok 0
  | some ptr => (lobby.room ptr).map Room.id

/- A `LeaveRoom` message. -/
def onLeaveRoom
    (lobby : Lobby)
    (connection : ConnId)
    (draws : Draws) : Except Exn Lobby := do
  let roomId ← lobby.presentRoomId connection
  let lobby ← lobby.leaveRoom connection draws.leaving
  let chips :=
    lobby.accountChipsFor (lobby.world.names connection)
  .ok (lobby.send connection (.leftRoom
    { roomId := roomId
      yourChips := chips.getD 0
      hasYourChips := chips.isSome }))

/- A `ListRooms` message. -/
def onListRooms
    (lobby : Lobby)
    (connection : ConnId) : Except Exn Lobby := do
  let roomList ← lobby.getRoomList
  .ok (lobby.send connection (.roomList roomList))

/- A `StartGame` message. -/
def onStartGame
    (lobby : Lobby)
    (connection : ConnId)
    (draws : Draws) : Except Exn Lobby := do
  let (error, lobby) ←
    lobby.startGame connection draws.starting
  .ok (lobby.answer connection error)

/- A `PlayerAction` message. -/
def onPlayerAction
    (lobby : Lobby)
    (msg : PlayerAction)
    (connection : ConnId)
    (draws : Draws) : Except Exn Lobby :=
  match lobby.findRoomByPlayer connection with
  | none => .ok (lobby.sendError connection .notInRoom "")
  | some _ =>
      lobby.playerAction connection msg.action msg.amount
        draws.starting

/- `process_client_message`. -/
def processClientMessage
    (lobby : Lobby)
    (msg : ClientMessage)
    (connection : ConnId)
    (draws : Draws) : Except Exn Lobby :=
  match msg with
  | .login _ => .ok lobby
  | .createRoom msg => lobby.onCreateRoom msg connection draws
  | .joinRoom msg => lobby.onJoinRoom msg connection draws
  | .leaveRoom => lobby.onLeaveRoom connection draws
  | .listRooms => lobby.onListRooms connection
  | .startGame => lobby.onStartGame connection draws
  | .playerAction msg =>
      lobby.onPlayerAction msg connection draws

/- `on_disconnect`. -/
def onDisconnect
    (lobby : Lobby)
    (connection : ConnId)
    (shuffles : List Shuffle) : Except Exn Lobby :=
  lobby.leaveRoom connection shuffles

end Lobby

end Server

end Poker

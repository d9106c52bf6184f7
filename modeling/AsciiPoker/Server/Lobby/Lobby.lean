import AsciiPoker.Library.Transition
import AsciiPoker.Server.Lobby.Room

/-
  The lobby (`lobby.h`, `lobby.cpp`).

  A `shared_ptr<Room>` is the place of its room in `heap`,
  the list of all rooms that were ever made, so that rooms
  are compared as pointers are and not by their ids.  The
  connections of the registry stand in the order in which
  the set is gone through.

  Main declarations:
    * `Lobby`, `Lobby.getRoomList`
    * `Lobby.createRoom`, `Lobby.joinRoom`,
      `Lobby.leaveRoom`, `Lobby.startGame`
    * `Call`, `Lobby.step`, `Lobby.Run`
-/

namespace Poker

namespace Server

open Protocol

------------------------------------------------------------
-- The Data
------------------------------------------------------------

/- A `shared_ptr<Room>`. -/
abbrev RoomPtr := Nat

structure Lobby where
  world : World
  connectionRegistry : Option (List ConnId)
  heap : List Room := []
  rooms : List RoomPtr := []
  playerRooms : KeyMap ConnId RoomPtr := .empty
  nextRoomId : UInt64 := 1

/-
  The shuffles of one call: those drawn while the player
  leaves a room and those drawn by the game that starts.
-/
structure Draws where
  leaving : List Shuffle := []
  starting : List Shuffle := []

namespace Lobby

------------------------------------------------------------
-- Looking at Rooms
------------------------------------------------------------

/- `*room`. -/
def room
    (lobby : Lobby)
    (ptr : RoomPtr) : Except Exn Room :=
  require .badIndex lobby.heap[ptr]?

/- Write back a room and what it did to the world. -/
def setRoom
    (lobby : Lobby)
    (ptr : RoomPtr)
    (room : Room)
    (world : World) : Lobby :=
  { lobby with
    world := world
    heap := lobby.heap.set ptr room }

/- `get_room_list`. -/
def getRoomList
    (lobby : Lobby) : Except Exn RoomList := do
  let rooms ← lobby.rooms.mapM lobby.room
  .ok ⟨rooms.map Room.getRoomInfo⟩

/- `find_if` over `rooms_` by the id of a room. -/
def findRoom
    (lobby : Lobby)
    (id : UInt64) :
    List RoomPtr → Except Exn (Option RoomPtr)
| [] => .ok none
| ptr :: ptrs => do
    let room ← lobby.room ptr
    if room.id = id then
      .ok (some ptr)
    else
      lobby.findRoom id ptrs

/- `get_room`. -/
def getRoom
    (lobby : Lobby)
    (id : UInt64) : Except Exn (Option RoomPtr) :=
  lobby.findRoom id lobby.rooms

/- `find_room_by_player`. -/
def findRoomByPlayer
    (lobby : Lobby)
    (player : ConnId) : Option RoomPtr :=
  lobby.playerRooms.find player

/- `broadcast_room_list`. -/
def broadcastRoomList
    (lobby : Lobby) : Except Exn Lobby :=
  match lobby.connectionRegistry with
  | none => .ok lobby
  | some connections => do
      let roomList ← lobby.getRoomList
      .ok { lobby with
        world := connections.foldl
          (fun world connection =>
            world.send connection (.roomList roomList))
          lobby.world }

/- `account_chips_for`. -/
def accountChipsFor
    (lobby : Lobby)
    (username : String) : Option UInt32 := do
  let users ← lobby.world.repository
  let user ← users.findByUsername username
  user.chips

/- `check_player_bankroll`. -/
def checkPlayerBankroll
    (lobby : Lobby)
    (player : ConnId) : Option ErrorCode :=
  match lobby.world.repository with
  | none => none
  | some users =>
      let chips :=
        World.storedChips users (lobby.world.names player)
      if chips < BIG_BLIND then
        some .notEnoughChips
      else
        none

------------------------------------------------------------
-- Leaving
------------------------------------------------------------

/- Drop a room without players from `rooms_`. -/
def dropIfEmpty
    (lobby : Lobby)
    (ptr : RoomPtr)
    (room : Room) : Lobby :=
  if room.playerCount = 0 then
    { lobby with
      rooms := lobby.rooms.filter fun other => other ≠ ptr }
  else
    lobby

/- `leave_room`. -/
def leaveRoom
    (lobby : Lobby)
    (player : ConnId)
    (shuffles : List Shuffle) : Except Exn Lobby :=
  match lobby.playerRooms.find player with
  | none => .ok lobby
  | some ptr => do
      let room ← lobby.room ptr
      let (_, room, world) ←
        room.removePlayer lobby.world player shuffles
      let lobby := lobby.setRoom ptr room world
      let lobby :=
        { lobby with
          playerRooms := lobby.playerRooms.erase player }
      (lobby.dropIfEmpty ptr room).broadcastRoomList

/- Leave the present room, if there is one. -/
def leavePresentRoom
    (lobby : Lobby)
    (player : ConnId)
    (shuffles : List Shuffle) : Except Exn Lobby :=
  if (lobby.playerRooms.find player).isSome then
    lobby.leaveRoom player shuffles
  else
    .ok lobby

------------------------------------------------------------
-- Entering
------------------------------------------------------------

/- `player_rooms_.insert`, which replaces nothing. -/
def insertPlayerRoom
    (lobby : Lobby)
    (player : ConnId)
    (ptr : RoomPtr) : Lobby :=
  if (lobby.playerRooms.find player).isSome then
    lobby
  else
    { lobby with
      playerRooms := lobby.playerRooms.set player ptr }

/- Make a room and append it to `rooms_`. -/
def makeRoom
    (lobby : Lobby)
    (name : String)
    (maxPlayers : UInt8)
    (creator : ConnId) : Lobby :=
  { lobby with
    nextRoomId := lobby.nextRoomId + 1
    heap := lobby.heap ++
      [{ id := lobby.nextRoomId
         name := name
         maxPlayers := maxPlayers
         host := creator }]
    rooms := lobby.rooms ++ [lobby.heap.length] }

/- `create_room`. -/
def createRoom
    (lobby : Lobby)
    (name : String)
    (maxPlayers : UInt8)
    (creator : ConnId)
    (draws : Draws) :
    Except Exn (Option RoomPtr × Lobby) :=
  if maxPlayers < 2 then
    .ok (none, lobby)
  else if (lobby.checkPlayerBankroll creator).isSome then
    .ok (none, lobby)
  else do
    let lobby ← lobby.leavePresentRoom creator draws.leaving
    let ptr := lobby.heap.length
    let lobby := lobby.makeRoom name maxPlayers creator
    let room ← lobby.room ptr
    let (_, room, world) ←
      room.addPlayer lobby.world creator draws.starting
    let lobby := lobby.setRoom ptr room world
    let lobby := lobby.insertPlayerRoom creator ptr
    let lobby ← lobby.broadcastRoomList
    .ok (some ptr, lobby)

/- Whether a player is in the room with an id. -/
def inRoomWithId
    (lobby : Lobby)
    (player : ConnId)
    (roomId : UInt64) : Except Exn Bool :=
  match lobby.playerRooms.find player with
  | none => .ok false
  | some ptr => do
      let room ← lobby.room ptr
      .ok (decide (room.id = roomId))

/- The part of `join_room` after the old room was left. -/
def enterRoom
    (lobby : Lobby)
    (roomId : UInt64)
    (player : ConnId)
    (shuffles : List Shuffle) :
    Except Exn (Option ErrorCode × Lobby) := do
  match ← lobby.getRoom roomId with
  | none => .ok (some .joinFailed, lobby)
  | some ptr =>
      let room ← lobby.room ptr
      if room.isGameStarted then
        .ok (some .gameAlreadyStarted, lobby)
      else if room.getRoomInfo.maxPlayers.toNat ≤
          room.playerCount then
        .ok (some .roomFull, lobby)
      else
        let (added, room, world) ←
          room.addPlayer lobby.world player shuffles
        let lobby := lobby.setRoom ptr room world
        if added then
          let lobby := lobby.insertPlayerRoom player ptr
          let lobby ← lobby.broadcastRoomList
          .ok (none, lobby)
        else
          .ok (some .joinFailed, lobby)

/- `join_room`. -/
def joinRoom
    (lobby : Lobby)
    (roomId : UInt64)
    (player : ConnId)
    (draws : Draws) :
    Except Exn (Option ErrorCode × Lobby) :=
  match lobby.checkPlayerBankroll player with
  | some error => .ok (some error, lobby)
  | none => do
      if ← lobby.inRoomWithId player roomId then
        .ok (none, lobby)
      else
        let lobby ←
          lobby.leavePresentRoom player draws.leaving
        lobby.enterRoom roomId player draws.starting

------------------------------------------------------------
-- Playing
------------------------------------------------------------

/- `start_game`. -/
def startGame
    (lobby : Lobby)
    (player : ConnId)
    (shuffles : List Shuffle) :
    Except Exn (Option ErrorCode × Lobby) :=
  match lobby.findRoomByPlayer player with
  | none => .ok (some .notInRoom, lobby)
  | some ptr => do
      let room ← lobby.room ptr
      let (error, room, world) ←
        room.tryStartGame lobby.world player shuffles
      let lobby := lobby.setRoom ptr room world
      match error with
      | some code => .ok (some code, lobby)
      | none => do
          let lobby ← lobby.broadcastRoomList
          .ok (none, lobby)

/- `on_player_action` of the player's room. -/
def playerAction
    (lobby : Lobby)
    (player : ConnId)
    (action : Action)
    (amount : Option UInt32)
    (shuffles : List Shuffle) : Except Exn Lobby :=
  match lobby.findRoomByPlayer player with
  | none => .ok lobby
  | some ptr => do
      let room ← lobby.room ptr
      let (room, world) ←
        room.onPlayerAction lobby.world player action amount
          shuffles
      .ok (lobby.setRoom ptr room world)

end Lobby

------------------------------------------------------------
-- Runs
------------------------------------------------------------

/- A call of the lobby by a connection. -/
inductive Call
  | createRoom
      (name : String)
      (maxPlayers : UInt8)
      (creator : ConnId)
      (draws : Draws)
  | joinRoom
      (roomId : UInt64)
      (player : ConnId)
      (draws : Draws)
  | leaveRoom
      (player : ConnId)
      (shuffles : List Shuffle)
  | startGame
      (player : ConnId)
      (shuffles : List Shuffle)
  | playerAction
      (player : ConnId)
      (action : Action)
      (amount : Option UInt32)
      (shuffles : List Shuffle)

namespace Lobby

/- The lobby after a call; a call that throws has none. -/
def step
    (lobby : Lobby) : Call → Except Exn Lobby
| .createRoom name maxPlayers creator draws =>
    (lobby.createRoom name maxPlayers creator draws).map
      Prod.snd
| .joinRoom roomId player draws =>
    (lobby.joinRoom roomId player draws).map Prod.snd
| .leaveRoom player shuffles =>
    lobby.leaveRoom player shuffles
| .startGame player shuffles =>
    (lobby.startGame player shuffles).map Prod.snd
| .playerAction player action amount shuffles =>
    lobby.playerAction player action amount shuffles

/- `Lobby::Lobby`. -/
def opening
    (world : World)
    (connectionRegistry : Option (List ConnId)) : Lobby where
  world := world
  connectionRegistry := connectionRegistry

/-
  `Lobby.Run world registry trace lobby`: the calls in
  `trace` lead from a new lobby to `lobby`.
-/
def Run
    (world : World)
    (connectionRegistry : Option (List ConnId))
    (trace : List (Lobby × Call))
    (lobby : Lobby) : Prop :=
  Transition.Run step (opening world connectionRegistry)
    trace lobby

end Lobby

end Server

end Poker

import AsciiPoker.Server.GameSession.Machine
import AsciiPoker.Server.Storage.UserRepository

/-
  A room (`room.h`, `room.cpp`).

  A `RemotePlayer` does nothing but pass on to its
  connection, and a room makes one for each connection, so
  the player is named by the connection.

  What a room reaches outside itself is a `World`: the names
  of the connections, the user repository and the messages
  that connections were told to send.  What a session did
  during a call is read off the end of its log.

  Main declarations:
    * `World`
    * `Config.finish`
    * `Room`, `Room.addPlayer`, `Room.removePlayer`
    * `Room.tryStartGame`, `Room.onPlayerAction`
-/

------------------------------------------------------------
-- The World of a Room
------------------------------------------------------------

namespace Poker

namespace Server

open Protocol

structure World where
  names : ConnId → String
  repository : Option UserRepository
  outbox : List (ConnId × ServerMessage) := []

namespace World

/- `connection->send(msg)`. -/
def send
    (world : World)
    (connection : ConnId)
    (msg : ServerMessage) : World :=
  { world with outbox := world.outbox ++ [(connection, msg)] }

/- Do what a session did. -/
def perform
    (world : World) : Effect → World
| .send player msg => world.send player msg
| .updateChips username chips =>
    { world with
      repository := world.repository.map
        fun users => users.updateChips username chips }

/- The chips of a stored account, none without an account. -/
def storedChips
    (users : UserRepository)
    (username : String) : UInt32 :=
  match users.findByUsername username with
  | none => 0
  | some user => user.chips

end World

------------------------------------------------------------
-- Calling a Session
------------------------------------------------------------

namespace Config

/-
  Run a call of a session until nothing is left to run.  The
  list holds what `start` would draw at each turn.
-/
def finish
    (c : Config) :
    List Shuffle → Except Exn GameSession
| [] =>
    if c.pending = .done then
      .ok c.session
    else
      .error .notEnabled
| shuffle :: rest =>
    if c.pending = .done then
      .ok c.session
    else
      match c.step (.proceed shuffle) with
      | .error exn => .error exn
      | .ok d => d.finish rest

end Config

namespace World

/- Do what a session did since it was `before`. -/
def performSince
    (world : World)
    (before after : GameSession) : World :=
  (after.log.drop before.log.length).foldl perform world

end World

------------------------------------------------------------
-- Rooms
------------------------------------------------------------

structure Room where
  id : UInt64
  name : String
  maxPlayers : UInt8
  host : ConnId
  players : List ConnId := []
  gameSession : Option GameSession := none

namespace Room

/- `player_count`. -/
def playerCount
    (room : Room) : Nat :=
  room.players.length

/- `is_game_started`. -/
def isGameStarted
    (room : Room) : Bool :=
  room.gameSession.isSome

/- `get_all_players_names`. -/
def getAllPlayersNames
    (room : Room)
    (world : World) : List String :=
  room.players.map world.names

/- `get_room_info`. -/
def getRoomInfo
    (room : Room) : RoomInfo where
  roomId := room.id
  roomName := room.name
  currentPlayers := UInt8.ofNat room.playerCount
  maxPlayers := room.maxPlayers
  inGame := room.isGameStarted

/- `make_joined_room_message`. -/
def makeJoinedRoomMessage
    (room : Room)
    (world : World) : JoinedRoom where
  roomId := room.id
  playerNames := room.getAllPlayersNames world
  hostName := world.names room.host
  maxPlayers := room.maxPlayers
  inGame := room.isGameStarted

/- `notify_all_about_joined`. -/
def notifyAllAboutJoined
    (room : Room)
    (world : World) : World :=
  let joined := room.makeJoinedRoomMessage world
  room.players.foldl
    (fun world connection =>
      world.send connection (.joinedRoom joined))
    world

/- The chips a player would sit down with. -/
def bankroll
    (world : World)
    (connection : ConnId) : UInt32 :=
  match world.repository with
  | none => STARTING_CHIPS
  | some users =>
      World.storedChips users (world.names connection)

/- `load_player_bankrolls`. -/
def loadPlayerBankrolls
    (room : Room)
    (world : World) :
    Except ErrorCode (KeyMap String UInt32) :=
  room.players.foldlM
    (fun bankrolls connection =>
      let chips := bankroll world connection
      if chips < BIG_BLIND then
        .error .notEnoughChips
      else
        .ok (bankrolls.set (world.names connection) chips))
    .empty

/- The session that `start_game` constructs. -/
def makeSession
    (room : Room)
    (world : World)
    (bankrolls : KeyMap String UInt32) : GameSession where
  hasRepository := world.repository.isSome
  bankrolls := bankrolls
  names := world.names
  players := room.players
  connectionMap :=
    room.players.foldl
      (fun m connection => m.set connection connection) .empty

/- `start_game`. -/
def startGame
    (room : Room)
    (world : World)
    (shuffles : List Shuffle) :
    Except Exn (Option ErrorCode × Room × World) :=
  if room.gameSession.isSome then
    .ok (none, room, world)
  else
    match room.loadPlayerBankrolls world with
    | .error code => .ok (some code, room, world)
    | .ok bankrolls => do
        let created := room.makeSession world bankrolls
        let session ← Config.finish ⟨created, .start⟩ shuffles
        .ok (none, { room with gameSession := some session },
          world.performSince created session)

/- `add_player`. -/
def addPlayer
    (room : Room)
    (world : World)
    (player : ConnId)
    (shuffles : List Shuffle) :
    Except Exn (Bool × Room × World) :=
  if room.gameSession.isSome then
    .ok (false, room, world)
  else if room.maxPlayers.toNat ≤ room.players.length then
    .ok (false, room, world)
  else
    let room :=
      { room with players := room.players ++ [player] }
    let world := room.notifyAllAboutJoined world
    if room.players.length = room.maxPlayers.toNat then do
      -- An error of the automatic start is only logged.
      let (_, room, world) ← room.startGame world shuffles
      .ok (true, room, world)
    else
      .ok (true, room, world)

/- The session's part of `remove_player`. -/
def removeFromSession
    (room : Room)
    (world : World)
    (player : ConnId)
    (shuffles : List Shuffle) :
    Except Exn (Room × World) :=
  match room.gameSession with
  | none => .ok (room, world)
  | some session => do
      let (called, pending) ← session.removePlayer player
      let left ← Config.finish ⟨called, pending⟩ shuffles
      let kept :=
        if left.hasEnoughPlayers then some left else none
      .ok ({ room with gameSession := kept },
        world.performSince session left)

/- The new host once `player` has left his seat. -/
def hostAfter
    (room : Room)
    (player : ConnId) : ConnId :=
  if player = room.host then
    room.players.headD room.host
  else
    room.host

/- `remove_player`. -/
def removePlayer
    (room : Room)
    (world : World)
    (player : ConnId)
    (shuffles : List Shuffle) :
    Except Exn (Bool × Room × World) :=
  if player ∉ room.players then
    .ok (false, room, world)
  else do
    let (room, world) ←
      room.removeFromSession world player shuffles
    let room :=
      { room with players := room.players.erase player }
    let room := { room with host := room.hostAfter player }
    if room.players ≠ [] then
      .ok (true, room, room.notifyAllAboutJoined world)
    else
      .ok (true, room, world)

/- `try_start_game`. -/
def tryStartGame
    (room : Room)
    (world : World)
    (requester : ConnId)
    (shuffles : List Shuffle) :
    Except Exn (Option ErrorCode × Room × World) :=
  if room.gameSession.isSome then
    .ok (some .gameAlreadyStarted, room, world)
  else if requester ≠ room.host then
    .ok (some .notRoomHost, room, world)
  else if room.players.length < 2 then
    .ok (some .notEnoughPlayers, room, world)
  else
    room.startGame world shuffles

/- `on_player_action`. -/
def onPlayerAction
    (room : Room)
    (world : World)
    (player : ConnId)
    (action : Action)
    (amount : Option UInt32)
    (shuffles : List Shuffle) :
    Except Exn (Room × World) :=
  match room.gameSession with
  | none => .ok (room, world)
  | some session => do
      let (called, pending) ←
        session.applyAction player action amount
      let after ← Config.finish ⟨called, pending⟩ shuffles
      .ok ({ room with gameSession := some after },
        world.performSince session after)

end Room

end Server

end Poker

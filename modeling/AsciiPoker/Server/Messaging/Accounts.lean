import AsciiPoker.Library.Failure
import AsciiPoker.Server.Messaging.LobbyMessageProcessor

/-
  What no request to the lobby changes: the names of the
  connections, who has an account, and who is registered.

  Main declarations:
    * `World.Stores`, `World.Keeps`
    * `Lobby.Keeps`
    * `Lobby.processClientMessage_keeps`
-/

namespace Poker

namespace Server

open Protocol

------------------------------------------------------------
-- Worlds
------------------------------------------------------------

namespace World

/- There is an account with the name, in any spelling. -/
def Stores
    (world : World)
    (username : String) : Prop :=
  ∃ users ∈ world.repository, ∃ user ∈ users.users,
    UserRepository.Matches username user

/- The names are the same and every account is still there. -/
structure Keeps
    (world after : World) : Prop where
  names : after.names = world.names
  stores : ∀ username,
    world.Stores username → after.Stores username

variable {world after last : World}

/- What does nothing keeps all. -/
theorem Keeps.refl
    (world : World) :
    world.Keeps world :=
  ⟨rfl, fun _ h => h⟩

/- What follows keeps what was kept before. -/
theorem Keeps.trans
    (hFirst : world.Keeps after)
    (hSecond : after.Keeps last) :
    world.Keeps last :=
  ⟨hSecond.names.trans hFirst.names,
    fun username h =>
      hSecond.stores username (hFirst.stores username h)⟩

/- A message changes the outbox alone. -/
theorem send_keeps
    (world : World)
    (connection : ConnId)
    (msg : ServerMessage) :
    world.Keeps (world.send connection msg) :=
  ⟨rfl, fun _ h => h⟩

/- Chips change and the account stays. -/
theorem perform_keeps
    (world : World)
    (effect : Effect) :
    world.Keeps (world.perform effect) := by
  cases effect with
  | send player msg => exact world.send_keeps player msg
  | updateChips username chips =>
      refine ⟨rfl, ?_⟩
      rintro name ⟨users, hUsers, user, hUser, hMatches⟩
      rw [Option.mem_def] at hUsers
      refine ⟨users.updateChips username chips, ?_, ?_⟩
      · simp [perform, hUsers]
      · unfold UserRepository.updateChips
        dsimp only
        split
        · exact ⟨user, hUser, hMatches⟩
        · refine ⟨_, List.mem_map.mpr ⟨user, hUser, rfl⟩, ?_⟩
          split
          · exact hMatches
          · exact hMatches

/- What each round of a loop keeps, the loop keeps. -/
theorem foldl_keeps
    {α : Type}
    {f : World → α → World}
    (hKeep : ∀ (w : World) (a : α), w.Keeps (f w a))
    (as : List α)
    (world : World) :
    world.Keeps (as.foldl f world) := by
  induction as generalizing world with
  | nil => exact Keeps.refl world
  | cons a as ih => exact (hKeep world a).trans (ih _)

/- What a session did is a list of such effects. -/
theorem performSince_keeps
    (world : World)
    (before session : GameSession) :
    world.Keeps (world.performSince before session) :=
  foldl_keeps perform_keeps _ world

end World

------------------------------------------------------------
-- Rooms
------------------------------------------------------------

namespace Room

variable {room after : Room}
variable {world world' : World}
variable {player : ConnId}
variable {shuffles : List Shuffle}

/- A roster is sent to everybody in the room. -/
theorem notifyAllAboutJoined_keeps
    (room : Room)
    (world : World) :
    world.Keeps (room.notifyAllAboutJoined world) :=
  World.foldl_keeps
    (fun w c => w.send_keeps c _) room.players world

/- A game that starts stores chips and sends. -/
theorem startGame_keeps
    {error : Option ErrorCode}
    (hOk : room.startGame world shuffles =
      .ok (error, after, world')) :
    world.Keeps world' := by
  unfold startGame at hOk
  split at hOk
  · cases hOk
    exact World.Keeps.refl world
  · split at hOk
    · cases hOk
      exact World.Keeps.refl world
    · rcases Except.bind_eq_ok.mp hOk with
        ⟨session, _, hRest⟩
      cases hRest
      exact world.performSince_keeps _ session

/- Whoever sits down is announced, and may start a game. -/
theorem addPlayer_keeps
    {added : Bool}
    (hOk : room.addPlayer world player shuffles =
      .ok (added, after, world')) :
    world.Keeps world' := by
  unfold addPlayer at hOk
  split at hOk
  · cases hOk
    exact World.Keeps.refl world
  · split at hOk
    · cases hOk
      exact World.Keeps.refl world
    · have hTold := notifyAllAboutJoined_keeps
        { room with players := room.players ++ [player] }
        world
      dsimp only at hOk
      split at hOk
      · rcases Except.bind_eq_ok.mp hOk with
          ⟨⟨error, started, w⟩, hStart, hRest⟩
        cases hRest
        exact hTold.trans (startGame_keeps hStart)
      · cases hOk
        exact hTold

/- Whoever leaves has his chips stored by the session. -/
theorem removePlayer_keeps
    {removed : Bool}
    (hOk : room.removePlayer world player shuffles =
      .ok (removed, after, world')) :
    world.Keeps world' := by
  unfold removePlayer at hOk
  split at hOk
  · cases hOk
    exact World.Keeps.refl world
  · rcases Except.bind_eq_ok.mp hOk with
      ⟨⟨called, w⟩, hSession, hRest⟩
    have hLeft : world.Keeps w := by
      unfold removeFromSession at hSession
      split at hSession
      · cases hSession
        exact World.Keeps.refl world
      · rcases Except.bind_eq_ok.mp hSession with
          ⟨⟨s, pending⟩, _, hFinish⟩
        rcases Except.bind_eq_ok.mp hFinish with
          ⟨left, _, hKept⟩
        cases hKept
        exact world.performSince_keeps _ left
    dsimp only at hRest
    split at hRest
    · cases hRest
      exact hLeft.trans (notifyAllAboutJoined_keeps _ w)
    · cases hRest
      exact hLeft

/- A start that is refused does nothing at all. -/
theorem tryStartGame_keeps
    {error : Option ErrorCode}
    (hOk : room.tryStartGame world player shuffles =
      .ok (error, after, world')) :
    world.Keeps world' := by
  unfold tryStartGame at hOk
  split at hOk
  · cases hOk
    exact World.Keeps.refl world
  · split at hOk
    · cases hOk
      exact World.Keeps.refl world
    · split at hOk
      · cases hOk
        exact World.Keeps.refl world
      · exact startGame_keeps hOk

/- A move stores chips when it ends a hand. -/
theorem onPlayerAction_keeps
    {action : Action}
    {amount : Option UInt32}
    (hOk : room.onPlayerAction world player action amount
      shuffles = .ok (after, world')) :
    world.Keeps world' := by
  unfold onPlayerAction at hOk
  split at hOk
  · cases hOk
    exact World.Keeps.refl world
  · rcases Except.bind_eq_ok.mp hOk with
      ⟨⟨called, pending⟩, _, hRest⟩
    rcases Except.bind_eq_ok.mp hRest with
      ⟨left, _, hKept⟩
    cases hKept
    exact world.performSince_keeps _ left

end Room

------------------------------------------------------------
-- The Lobby
------------------------------------------------------------

namespace Lobby

/- The names, the accounts and the registry are kept. -/
structure Keeps
    (lobby after : Lobby) : Prop where
  world : lobby.world.Keeps after.world
  registry : after.connectionRegistry =
    lobby.connectionRegistry

variable {lobby after last : Lobby}
variable {player : ConnId}
variable {draws : Draws}
variable {shuffles : List Shuffle}

/- The lobby as it is. -/
theorem Keeps.refl
    (lobby : Lobby) :
    lobby.Keeps lobby :=
  ⟨World.Keeps.refl _, rfl⟩

/- One part of a call after the other. -/
theorem Keeps.trans
    (hFirst : lobby.Keeps after)
    (hSecond : after.Keeps last) :
    lobby.Keeps last :=
  ⟨hFirst.world.trans hSecond.world,
    hSecond.registry.trans hFirst.registry⟩

/- An answer leaves the registry as it is. -/
theorem send_keeps
    (lobby : Lobby)
    (connection : ConnId)
    (msg : ServerMessage) :
    lobby.Keeps (lobby.send connection msg) :=
  ⟨World.send_keeps _ connection msg, rfl⟩

/- So does an error that a call returned, if any. -/
theorem answer_keeps
    (lobby : Lobby)
    (connection : ConnId)
    (error : Option ErrorCode) :
    lobby.Keeps (lobby.answer connection error) := by
  cases error with
  | none => exact Keeps.refl lobby
  | some code => exact lobby.send_keeps connection _

/- Writing back a room keeps what its call kept. -/
theorem setRoom_keeps
    {ptr : RoomPtr}
    {room : Room}
    {world : World}
    (hKeeps : lobby.world.Keeps world) :
    lobby.Keeps (lobby.setRoom ptr room world) :=
  ⟨hKeeps, rfl⟩

/- Who sits where is no part of what is kept. -/
theorem insertPlayerRoom_keeps
    (lobby : Lobby)
    (player : ConnId)
    (ptr : RoomPtr) :
    lobby.Keeps (lobby.insertPlayerRoom player ptr) := by
  unfold insertPlayerRoom
  split
  · exact Keeps.refl lobby
  · exact ⟨World.Keeps.refl _, rfl⟩

/- The list goes to the connections of the registry. -/
theorem broadcastRoomList_keeps
    (hOk : lobby.broadcastRoomList = .ok after) :
    lobby.Keeps after := by
  unfold broadcastRoomList at hOk
  split at hOk
  · cases hOk
    exact Keeps.refl lobby
  · rcases Except.bind_eq_ok.mp hOk with
      ⟨roomList, _, hRest⟩
    cases hRest
    exact ⟨World.foldl_keeps
      (fun w c => w.send_keeps c _) _ _, rfl⟩

/- A departure is that from a room, and is announced. -/
theorem leaveRoom_keeps
    (hOk : lobby.leaveRoom player shuffles = .ok after) :
    lobby.Keeps after := by
  unfold leaveRoom at hOk
  split at hOk
  · cases hOk
    exact Keeps.refl lobby
  · rename_i ptr _
    rcases Except.bind_eq_ok.mp hOk with ⟨room, _, hRest⟩
    rcases Except.bind_eq_ok.mp hRest with
      ⟨⟨removed, left, world⟩, hRemove, hTell⟩
    have hLeft := Room.removePlayer_keeps hRemove
    refine Keeps.trans ?_ (broadcastRoomList_keeps hTell)
    unfold dropIfEmpty
    split
    · exact ⟨hLeft, rfl⟩
    · exact ⟨hLeft, rfl⟩

/- Whoever has no room leaves none. -/
theorem leavePresentRoom_keeps
    (hOk : lobby.leavePresentRoom player shuffles =
      .ok after) :
    lobby.Keeps after := by
  unfold leavePresentRoom at hOk
  split at hOk
  · exact leaveRoom_keeps hOk
  · cases hOk
    exact Keeps.refl lobby

/- Leaving, making a room, sitting down, announcing it. -/
theorem createRoom_keeps
    {name : String}
    {maxPlayers : UInt8}
    {made : Option RoomPtr}
    (hOk : lobby.createRoom name maxPlayers player draws =
      .ok (made, after)) :
    lobby.Keeps after := by
  unfold createRoom at hOk
  split at hOk
  · cases hOk
    exact Keeps.refl lobby
  · split at hOk
    · cases hOk
      exact Keeps.refl lobby
    · rcases Except.bind_eq_ok.mp hOk with
        ⟨left, hLeave, hRest⟩
      rcases Except.bind_eq_ok.mp hRest with
        ⟨room, _, hEnter⟩
      rcases Except.bind_eq_ok.mp hEnter with
        ⟨⟨added, entered, world⟩, hAdd, hInsert⟩
      rcases Except.bind_eq_ok.mp hInsert with
        ⟨told, hTell, hEnd⟩
      cases hEnd
      have hMade : left.Keeps
          (left.makeRoom name maxPlayers player) :=
        ⟨World.Keeps.refl _, rfl⟩
      exact (leavePresentRoom_keeps hLeave).trans
        (hMade.trans
          ((setRoom_keeps (Room.addPlayer_keeps hAdd)).trans
            ((insertPlayerRoom_keeps _ _ _).trans
              (broadcastRoomList_keeps hTell))))

/- Each check that fails returns the lobby as it was. -/
theorem enterRoom_keeps
    {roomId : UInt64}
    {error : Option ErrorCode}
    (hOk : lobby.enterRoom roomId player shuffles =
      .ok (error, after)) :
    lobby.Keeps after := by
  unfold enterRoom at hOk
  rcases Except.bind_eq_ok.mp hOk with ⟨found, _, hRest⟩
  cases found with
  | none =>
      cases hRest
      exact Keeps.refl lobby
  | some ptr =>
      rcases Except.bind_eq_ok.mp hRest with
        ⟨room, _, hChecks⟩
      split at hChecks
      · cases hChecks
        exact Keeps.refl lobby
      · split at hChecks
        · cases hChecks
          exact Keeps.refl lobby
        · rcases Except.bind_eq_ok.mp hChecks with
            ⟨⟨added, entered, world⟩, hAdd, hEnter⟩
          have hSet : lobby.Keeps
              (lobby.setRoom ptr entered world) :=
            setRoom_keeps (Room.addPlayer_keeps hAdd)
          cases added with
          | false =>
              cases hEnter
              exact hSet
          | true =>
              rcases Except.bind_eq_ok.mp hEnter with
                ⟨told, hTell, hEnd⟩
              cases hEnd
              exact hSet.trans
                ((insertPlayerRoom_keeps _ _ _).trans
                  (broadcastRoomList_keeps hTell))

/- Leaving, and then entering. -/
theorem joinRoom_keeps
    {roomId : UInt64}
    {error : Option ErrorCode}
    (hOk : lobby.joinRoom roomId player draws =
      .ok (error, after)) :
    lobby.Keeps after := by
  unfold joinRoom at hOk
  split at hOk
  · cases hOk
    exact Keeps.refl lobby
  · rcases Except.bind_eq_ok.mp hOk with ⟨same, _, hRest⟩
    cases same with
    | true =>
        cases hRest
        exact Keeps.refl lobby
    | false =>
        rcases Except.bind_eq_ok.mp hRest with
          ⟨left, hLeave, hEnter⟩
        exact (leavePresentRoom_keeps hLeave).trans
          (enterRoom_keeps hEnter)

/- The list is sent again when the game has started. -/
theorem startGame_keeps
    {error : Option ErrorCode}
    (hOk : lobby.startGame player shuffles =
      .ok (error, after)) :
    lobby.Keeps after := by
  unfold startGame at hOk
  split at hOk
  · cases hOk
    exact Keeps.refl lobby
  · rename_i ptr _
    rcases Except.bind_eq_ok.mp hOk with ⟨room, _, hRest⟩
    rcases Except.bind_eq_ok.mp hRest with
      ⟨⟨code, started, world⟩, hStart, hEnd⟩
    have hSet : lobby.Keeps
        (lobby.setRoom ptr started world) :=
      setRoom_keeps (Room.tryStartGame_keeps hStart)
    cases code with
    | some code =>
        cases hEnd
        exact hSet
    | none =>
        rcases Except.bind_eq_ok.mp hEnd with
          ⟨told, hTell, hDone⟩
        cases hDone
        exact hSet.trans (broadcastRoomList_keeps hTell)

/- A move is passed on to the room. -/
theorem playerAction_keeps
    {action : Action}
    {amount : Option UInt32}
    (hOk : lobby.playerAction player action amount shuffles =
      .ok after) :
    lobby.Keeps after := by
  unfold playerAction at hOk
  split at hOk
  · cases hOk
    exact Keeps.refl lobby
  · rename_i ptr _
    rcases Except.bind_eq_ok.mp hOk with ⟨room, _, hRest⟩
    rcases Except.bind_eq_ok.mp hRest with
      ⟨⟨acted, world⟩, hAct, hEnd⟩
    cases hEnd
    exact setRoom_keeps (Room.onPlayerAction_keeps hAct)

/- No request changes the names or drops an account. -/
theorem processClientMessage_keeps
    {msg : ClientMessage}
    (hOk : lobby.processClientMessage msg player draws =
      .ok after) :
    lobby.Keeps after := by
  cases msg with
  | login msg =>
      cases hOk
      exact Keeps.refl lobby
  | createRoom msg =>
      simp only [processClientMessage, onCreateRoom] at hOk
      split at hOk
      · cases hOk
        exact lobby.send_keeps player _
      · split at hOk
        · cases hOk
          exact lobby.send_keeps player _
        · rcases Except.map_eq_ok.mp hOk with
            ⟨⟨made, created⟩, hCreate, rfl⟩
          exact createRoom_keeps hCreate
  | joinRoom msg =>
      rcases Except.bind_eq_ok.mp hOk with
        ⟨⟨error, joined⟩, hJoin, hEnd⟩
      cases hEnd
      exact (joinRoom_keeps hJoin).trans
        (joined.answer_keeps player error)
  | leaveRoom =>
      rcases Except.bind_eq_ok.mp hOk with
        ⟨roomId, _, hRest⟩
      rcases Except.bind_eq_ok.mp hRest with
        ⟨left, hLeave, hEnd⟩
      cases hEnd
      exact (leaveRoom_keeps hLeave).trans
        (left.send_keeps player _)
  | listRooms =>
      rcases Except.bind_eq_ok.mp hOk with
        ⟨roomList, _, hEnd⟩
      cases hEnd
      exact lobby.send_keeps player _
  | startGame =>
      rcases Except.bind_eq_ok.mp hOk with
        ⟨⟨error, started⟩, hStart, hEnd⟩
      cases hEnd
      exact (startGame_keeps hStart).trans
        (started.answer_keeps player error)
  | playerAction msg =>
      simp only [processClientMessage, onPlayerAction] at hOk
      split at hOk
      · cases hOk
        exact lobby.send_keeps player _
      · exact playerAction_keeps hOk

end Lobby

end Server

end Poker

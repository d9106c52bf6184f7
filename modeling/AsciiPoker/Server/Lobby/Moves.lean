import AsciiPoker.Server.Lobby.Representation

/-
  What a call of the lobby does, one room after the other.

  A call takes its player out of the room he is in, puts him
  into another one, or has his room start or play.  What is
  kept by these is kept by every call.

  Main declarations:
    * `World.Told`, `Room.Evolves`
    * `Lobby.Departs`, `Lobby.Arrives`, `Lobby.Plays`
    * `Lobby.Moves`, `Lobby.moves_of_ok`
    * `Lobby.Rewrites`, `Lobby.Each`
-/

namespace Poker

namespace Server

open Protocol

------------------------------------------------------------
-- Messages
------------------------------------------------------------

namespace World

/- Nothing was done but to send messages. -/
def Told
    (world after : World) : Prop :=
  ∃ outbox, after = { world with outbox := outbox }

/- Nothing was sent. -/
theorem Told.refl
    (world : World) :
    world.Told world :=
  ⟨world.outbox, rfl⟩

/- Some messages and then others. -/
theorem Told.trans
    {world after last : World}
    (hFirst : world.Told after)
    (hSecond : after.Told last) :
    world.Told last := by
  rcases hFirst with ⟨_, rfl⟩
  rcases hSecond with ⟨outbox, rfl⟩
  exact ⟨outbox, rfl⟩

/- One message to each of a list. -/
theorem told_foldl_send
    (connections : List ConnId)
    (msg : ServerMessage)
    (world : World) :
    world.Told (connections.foldl
      (fun world connection => world.send connection msg)
      world) := by
  induction connections generalizing world with
  | nil => exact Told.refl world
  | cons c cs ih =>
      rcases ih (world.send c msg) with ⟨outbox, hEq⟩
      exact ⟨outbox, hEq⟩

end World

------------------------------------------------------------
-- Sessions
------------------------------------------------------------

namespace Room

/-
  What becomes of the session of a room: it is left alone,
  called and kept or dropped, or made.
-/
inductive Evolves
    (room after : Room)
    (world world' : World) : Prop
  | rested
      (hSession : after.gameSession = room.gameSession)
      (hTold : world.Told world')
  | called
      {s t called : GameSession}
      {e : Event}
      {pending : Pending}
      {shuffles : List Shuffle}
      (hSession : room.gameSession = some s)
      (hOk : Config.step ⟨s, .done⟩ e =
        .ok ⟨called, pending⟩)
      (hFinish : Config.finish ⟨called, pending⟩ shuffles =
        .ok t)
      (hKept : ∀ u ∈ after.gameSession, u = t)
      (hTold : (world.performSince s t).Told world')
  | created
      {told : World}
      {bankrolls : KeyMap String UInt32}
      {session : GameSession}
      {shuffles : List Shuffle}
      (hNone : room.gameSession = none)
      (hTold : world.Told told)
      (hLoad : after.loadPlayerBankrolls told = .ok bankrolls)
      (hFinish : Config.finish
        ⟨after.makeSession told bankrolls, .start⟩ shuffles =
          .ok session)
      (hSession : after.gameSession = some session)
      (hSent : (told.performSince
        (after.makeSession told bankrolls) session).Told
          world')

variable {room after : Room}
variable {world world' : World}
variable {player : ConnId}
variable {shuffles : List Shuffle}

/- Messages may follow. -/
theorem Evolves.told
    {last : World}
    (hEvolves : room.Evolves after world world')
    (hTold : world'.Told last) :
    room.Evolves after world last := by
  cases hEvolves with
  | rested hSession hFirst =>
      exact Evolves.rested hSession (hFirst.trans hTold)
  | called hSession hOk hFinish hKept hFirst =>
      exact Evolves.called hSession hOk hFinish hKept
        (hFirst.trans hTold)
  | created hNone hFirst hLoad hFinish hSession hSent =>
      exact Evolves.created hNone hFirst hLoad hFinish
        hSession (hSent.trans hTold)

/- The roster is nothing but messages. -/
theorem notifyAllAboutJoined_told
    (room : Room)
    (world : World) :
    world.Told (room.notifyAllAboutJoined world) :=
  World.told_foldl_send room.players _ world

/- A session is made, unless somebody is too poor. -/
theorem startGame_evolves
    {error : Option ErrorCode}
    (hOk : room.startGame world shuffles =
      .ok (error, after, world')) :
    room.Evolves after world world' := by
  unfold startGame at hOk
  split at hOk
  · cases hOk
    exact Evolves.rested rfl (World.Told.refl world)
  · rename_i hStarted
    split at hOk
    · cases hOk
      exact Evolves.rested rfl (World.Told.refl world)
    · rename_i bankrolls hLoad
      rcases Except.bind_eq_ok.mp hOk with
        ⟨session, hFinish, hRest⟩
      cases hRest
      exact Evolves.created (by simpa using hStarted)
        (World.Told.refl world) hLoad hFinish rfl
        (World.Told.refl _)

/- Only the last seat makes one. -/
theorem addPlayer_evolves
    {added : Bool}
    (hOk : room.addPlayer world player shuffles =
      .ok (added, after, world')) :
    room.Evolves after world world' := by
  unfold addPlayer at hOk
  split at hOk
  · cases hOk
    exact Evolves.rested rfl (World.Told.refl world)
  · rename_i hClosed
    split at hOk
    · cases hOk
      exact Evolves.rested rfl (World.Told.refl world)
    · have hTold := notifyAllAboutJoined_told
        { room with players := room.players ++ [player] }
        world
      dsimp only at hOk
      split at hOk
      · rcases Except.bind_eq_ok.mp hOk with
          ⟨⟨error, started, w⟩, hStart, hRest⟩
        cases hRest
        cases startGame_evolves hStart with
        | rested hSession hStill =>
            exact Evolves.rested hSession (hTold.trans hStill)
        | called hSession _ _ _ _ =>
            have hNone : ¬ room.gameSession.isSome := hClosed
            dsimp only at hSession
            rw [hSession] at hNone
            exact absurd rfl hNone
        | created hNone hStill hLoad hFinish hSession hSent =>
            exact Evolves.created hNone (hTold.trans hStill)
              hLoad hFinish hSession hSent
      · cases hOk
        exact Evolves.rested rfl hTold

/- Nobody is added while a game is on. -/
theorem gameSession_of_added
    (hOk : room.addPlayer world player shuffles =
      .ok (true, after, world')) :
    room.gameSession = none := by
  unfold addPlayer at hOk
  split at hOk
  · cases hOk
  · rename_i hClosed
    simpa using hClosed

/- A removal calls the session, if there is one. -/
theorem removePlayer_calls
    {removed : Bool}
    {s : GameSession}
    (hOrder : room.InOrder)
    (hMem : player ∈ room.players)
    (hSession : room.gameSession = some s)
    (hOk : room.removePlayer world player shuffles =
      .ok (removed, after, world')) :
    ∃ called pending t,
      Config.step ⟨s, .done⟩ (.removePlayer player) =
        .ok ⟨called, pending⟩ ∧
      Config.finish ⟨called, pending⟩ shuffles = .ok t ∧
      (∀ u ∈ after.gameSession, u = t) ∧
      (world.performSince s t).Told world' := by
  unfold removePlayer removeFromSession at hOk
  rw [if_neg (by simpa using hMem), hSession] at hOk
  rcases Except.bind_eq_ok.mp hOk with
    ⟨⟨changed, w⟩, hRemove, hRest⟩
  rcases Except.bind_eq_ok.mp hRemove with
    ⟨⟨called, pending⟩, hCall, hFinished⟩
  rcases Except.bind_eq_ok.mp hFinished with
    ⟨t, hFinish, hKept⟩
  cases hKept
  have hIdle := (hOrder.served s hSession).idle
  have hStep : Config.step ⟨s, .done⟩
      (.removePlayer player) = .ok ⟨called, pending⟩ := by
    simp [Config.step, hIdle, hCall]
  have hOnly : ∀ u ∈ (if t.hasEnoughPlayers then some t
      else none), u = t := by
    intro u hu
    split at hu
    · exact (Option.mem_some.mp hu).symm
    · cases hu
  refine ⟨called, pending, t, hStep, hFinish, ?_⟩
  dsimp only at hRest
  split at hRest
  · cases hRest
    exact ⟨hOnly, notifyAllAboutJoined_told _ _⟩
  · cases hRest
    exact ⟨hOnly, World.Told.refl _⟩

/- A removal does nothing more than tell, without a session. -/
theorem removePlayer_tells
    {removed : Bool}
    (hMem : player ∈ room.players)
    (hSession : room.gameSession = none)
    (hOk : room.removePlayer world player shuffles =
      .ok (removed, after, world')) :
    after.gameSession = none ∧ world.Told world' := by
  unfold removePlayer removeFromSession at hOk
  rw [if_neg (by simpa using hMem), hSession] at hOk
  rcases Except.bind_eq_ok.mp hOk with
    ⟨⟨changed, w⟩, hRemove, hRest⟩
  cases hRemove
  dsimp only at hRest
  split at hRest
  · cases hRest
    exact ⟨hSession, notifyAllAboutJoined_told _ _⟩
  · cases hRest
    exact ⟨hSession, World.Told.refl _⟩

/- A session is told of the departure. -/
theorem removePlayer_evolves
    {removed : Bool}
    (hOrder : room.InOrder)
    (hMem : player ∈ room.players)
    (hOk : room.removePlayer world player shuffles =
      .ok (removed, after, world')) :
    room.Evolves after world world' := by
  cases hSession : room.gameSession with
  | some s =>
      rcases removePlayer_calls hOrder hMem hSession hOk with
        ⟨called, pending, t, hStep, hFinish, hKept, hTold⟩
      exact Evolves.called hSession hStep hFinish hKept hTold
  | none =>
      rcases removePlayer_tells hMem hSession hOk with
        ⟨hNone, hTold⟩
      exact Evolves.rested (hNone.trans hSession.symm) hTold

/- Three checks come first. -/
theorem tryStartGame_evolves
    {error : Option ErrorCode}
    (hOk : room.tryStartGame world player shuffles =
      .ok (error, after, world')) :
    room.Evolves after world world' := by
  unfold tryStartGame at hOk
  split at hOk
  · cases hOk
    exact Evolves.rested rfl (World.Told.refl world)
  · split at hOk
    · cases hOk
      exact Evolves.rested rfl (World.Told.refl world)
    · split at hOk
      · cases hOk
        exact Evolves.rested rfl (World.Told.refl world)
      · exact startGame_evolves hOk

/- A session is told of the action. -/
theorem onPlayerAction_evolves
    {action : Action}
    {amount : Option UInt32}
    (hOrder : room.InOrder)
    (hOk : room.onPlayerAction world player action amount
      shuffles = .ok (after, world')) :
    room.Evolves after world world' := by
  unfold onPlayerAction at hOk
  cases hSession : room.gameSession with
  | none =>
      rw [hSession] at hOk
      cases hOk
      exact Evolves.rested rfl (World.Told.refl world)
  | some s =>
      rw [hSession] at hOk
      rcases Except.bind_eq_ok.mp hOk with
        ⟨⟨called, pending⟩, hCall, hRest⟩
      rcases Except.bind_eq_ok.mp hRest with
        ⟨t, hFinish, hKept⟩
      cases hKept
      have hIdle := (hOrder.served s hSession).idle
      have hStep : Config.step ⟨s, .done⟩
          (.applyAction player action amount) =
            .ok ⟨called, pending⟩ := by
        simp [Config.step, hIdle, hCall]
      exact Evolves.called hSession hStep hFinish
        (fun u hu => (Option.mem_some.mp hu).symm)
        (World.Told.refl _)

end Room

namespace Lobby

------------------------------------------------------------
-- Moves
------------------------------------------------------------

/- The world with the room list sent, or as it was. -/
def Told
    (lobby new : Lobby) : Prop :=
  ∃ world, lobby.world.Told world ∧
    new = { lobby with world := world }

/- Somebody outside stays there, or a room loses a player. -/
inductive Departs
    (lobby : Lobby)
    (player : ConnId)
    (shuffles : List Shuffle) : Lobby → Prop
  | outside
      (hFree : lobby.playerRooms.find player = none) :
      Departs lobby player shuffles lobby
  | leaving
      {ptr : RoomPtr}
      {room after : Room}
      {removed : Bool}
      {world : World}
      {left : Lobby}
      (hHolds : lobby.Holds ptr room)
      (hMem : player ∈ room.players)
      (hRemove : room.removePlayer lobby.world player
        shuffles = .ok (removed, after, world))
      (hTold : (dropIfEmpty
        { lobby.setRoom ptr after world with
          playerRooms := lobby.playerRooms.erase player }
        ptr after).Told left) :
      Departs lobby player shuffles left

/- A room gets a player, who is put down in it. -/
inductive Arrives
    (lobby : Lobby)
    (player : ConnId)
    (shuffles : List Shuffle)
    (ptr : RoomPtr) : Lobby → Prop
  | seated
      {room after : Room}
      {world : World}
      {new : Lobby}
      (hHolds : lobby.Holds ptr room)
      (hOrder : room.InOrder)
      (hNew : player ∉ room.players)
      (hFree : lobby.playerRooms.find player = none)
      (hAdd : room.addPlayer lobby.world player shuffles =
        .ok (true, after, world))
      (hTold : ((lobby.setRoom ptr after world).insertPlayerRoom
        player ptr).Told new) :
      Arrives lobby player shuffles ptr new

/- A room starts a game or goes on with it. -/
inductive Plays
    (lobby : Lobby) : Lobby → Prop
  | started
      {ptr : RoomPtr}
      {room after : Room}
      {player : ConnId}
      {shuffles : List Shuffle}
      {error : Option ErrorCode}
      {world : World}
      {new : Lobby}
      (hHolds : lobby.Holds ptr room)
      (hStart : room.tryStartGame lobby.world player shuffles =
        .ok (error, after, world))
      (hTold : (lobby.setRoom ptr after world).Told new) :
      Plays lobby new
  | acted
      {ptr : RoomPtr}
      {room after : Room}
      {player : ConnId}
      {action : Action}
      {amount : Option UInt32}
      {shuffles : List Shuffle}
      {world : World}
      (hHolds : lobby.Holds ptr room)
      (hAct : room.onPlayerAction lobby.world player action
        amount shuffles = .ok (after, world)) :
      Plays lobby (lobby.setRoom ptr after world)

/- What a call of the lobby comes to. -/
inductive Moves
    (lobby : Lobby) : Lobby → Prop
  | nothing : Moves lobby lobby
  | leaves
      {player : ConnId}
      {shuffles : List Shuffle}
      {left : Lobby}
      (hDeparts : lobby.Departs player shuffles left) :
      Moves lobby left
  | enters
      {player : ConnId}
      {draws : Draws}
      {ptr : RoomPtr}
      {left new : Lobby}
      (hDeparts : lobby.Departs player draws.leaving left)
      (hArrives : left.Arrives player draws.starting ptr new) :
      Moves lobby new
  | makes
      {name : String}
      {maxPlayers : UInt8}
      {player : ConnId}
      {draws : Draws}
      {left new : Lobby}
      (hDeparts : lobby.Departs player draws.leaving left)
      (hArrives : (left.makeRoom name maxPlayers
        player).Arrives player draws.starting left.heap.length
          new) :
      Moves lobby new
  | plays
      {new : Lobby}
      (hPlays : lobby.Plays new) :
      Moves lobby new

------------------------------------------------------------
-- Calls Do Nothing Else
------------------------------------------------------------

section Inversion

variable {lobby left new : Lobby}
variable {player : ConnId}
variable {draws : Draws}
variable {shuffles : List Shuffle}

/- Nobody listens. -/
theorem Told.refl
    (lobby : Lobby) :
    lobby.Told lobby :=
  ⟨lobby.world, World.Told.refl _, rfl⟩

/- The list of rooms is one message to many. -/
theorem told_of_broadcastRoomList
    (hOk : lobby.broadcastRoomList = .ok new) :
    lobby.Told new := by
  unfold broadcastRoomList at hOk
  split at hOk
  · cases hOk
    exact Told.refl lobby
  · rcases Except.bind_eq_ok.mp hOk with
      ⟨roomList, _, hRest⟩
    cases hRest
    exact ⟨_, World.told_foldl_send _ _ _, rfl⟩

/- Who has no room stays outside. -/
theorem departs_of_leaveRoom
    (hTidy : lobby.Tidy)
    (hOk : lobby.leaveRoom player shuffles = .ok left) :
    lobby.Departs player shuffles left := by
  unfold leaveRoom at hOk
  cases hFind : lobby.playerRooms.find player with
  | none =>
      rw [hFind] at hOk
      cases hOk
      exact Departs.outside hFind
  | some ptr =>
      rw [hFind] at hOk
      rcases Except.bind_eq_ok.mp hOk with
        ⟨room, hRoom, hRest⟩
      rcases hTidy.holds_of_find hFind hRoom with
        ⟨hHolds, hMem⟩
      rcases Except.bind_eq_ok.mp hRest with
        ⟨⟨removed, after, world⟩, hRemove, hTell⟩
      exact Departs.leaving hHolds hMem hRemove
        (told_of_broadcastRoomList hTell)

/- It is `leave_room` behind a check. -/
theorem departs_of_leavePresentRoom
    (hTidy : lobby.Tidy)
    (hOk : lobby.leavePresentRoom player shuffles =
      .ok left) :
    lobby.Departs player shuffles left := by
  unfold leavePresentRoom at hOk
  split at hOk
  · exact departs_of_leaveRoom hTidy hOk
  · rename_i hNone
    cases hOk
    exact Departs.outside (by simpa using hNone)

/- A made room is held, with nobody in it. -/
theorem holds_makeRoom
    (lobby : Lobby)
    (name : String)
    (maxPlayers : UInt8)
    (player : ConnId) :
    (lobby.makeRoom name maxPlayers player).Holds
      lobby.heap.length
      (lobby.freshRoom name maxPlayers player) := by
  simp [Holds, makeRoom, freshRoom]

/-
  `create_room` changes nothing, or the creator has the
  bankroll and goes from his room to a new one.
-/
theorem createRoom_moves
    {name : String}
    {maxPlayers : UInt8}
    {made : Option RoomPtr}
    (hTidy : lobby.Tidy)
    (hOk : lobby.createRoom name maxPlayers player draws =
      .ok (made, new)) :
    (made = none ∧ new = lobby) ∨
      (lobby.checkPlayerBankroll player = none ∧
        ∃ left,
          made = some left.heap.length ∧
          lobby.Departs player draws.leaving left ∧
          (left.makeRoom name maxPlayers player).Arrives
            player draws.starting left.heap.length new) := by
  unfold createRoom at hOk
  split at hOk
  · cases hOk
    exact Or.inl ⟨rfl, rfl⟩
  rename_i hMax
  split at hOk
  · cases hOk
    exact Or.inl ⟨rfl, rfl⟩
  rename_i hBankroll
  have hTwo : 2 ≤ maxPlayers.toNat := Nat.le_of_not_lt hMax
  rcases Except.bind_eq_ok.mp hOk with ⟨left, hLeave, hRest⟩
  rcases hTidy.leavePresentRoom hLeave with ⟨hLeft, hFree⟩
  rcases Except.bind_eq_ok.mp hRest with
    ⟨room, hRoom, hEnter⟩
  rcases Except.bind_eq_ok.mp hEnter with
    ⟨⟨added, after, world⟩, hAdd, hInsert⟩
  rcases Except.bind_eq_ok.mp hInsert with
    ⟨told, hTell, hEnd⟩
  cases hEnd
  have hFresh := freshRoom_of_ok hRoom
  subst hFresh
  have hAdded : added = true := by
    rcases Room.addPlayer_of_ok (freshRoom_inOrder hTwo)
        (by simp [freshRoom]) hAdd with
      ⟨_, _, _, hStarted | hFull⟩ | ⟨h, _⟩
    · simp [freshRoom] at hStarted
    · simp only [freshRoom, List.length_nil] at hFull
      omega
    · exact h
  subst hAdded
  refine Or.inr ⟨by simpa using hBankroll, left, rfl,
    departs_of_leavePresentRoom hTidy hLeave, ?_⟩
  exact Arrives.seated (left.holds_makeRoom name maxPlayers
    player) (freshRoom_inOrder hTwo) (by simp [freshRoom])
    hFree hAdd (told_of_broadcastRoomList hTell)

/- A player without a room is turned away or enters one. -/
theorem enterRoom_moves
    {roomId : UInt64}
    {error : Option ErrorCode}
    (hTidy : lobby.Tidy)
    (hFree : lobby.playerRooms.find player = none)
    (hOk : lobby.enterRoom roomId player shuffles =
      .ok (error, new)) :
    (error ≠ none ∧ new = lobby) ∨
      (error = none ∧
        ∃ ptr, lobby.Arrives player shuffles ptr new) := by
  unfold enterRoom at hOk
  rcases Except.bind_eq_ok.mp hOk with ⟨found, hGet, hRest⟩
  cases found with
  | none =>
      cases hRest
      exact Or.inl ⟨by simp, rfl⟩
  | some ptr =>
      rcases Except.bind_eq_ok.mp hRest with
        ⟨room, hRoom, hChecks⟩
      have hHolds : lobby.Holds ptr room :=
        ⟨mem_of_findRoom hGet, require_eq_ok.mp hRoom⟩
      split at hChecks
      · cases hChecks
        exact Or.inl ⟨by simp, rfl⟩
      · split at hChecks
        · cases hChecks
          exact Or.inl ⟨by simp, rfl⟩
        · rename_i hOpen hRoomLeft
          rcases Except.bind_eq_ok.mp hChecks with
            ⟨⟨added, after, world⟩, hAdd, hEnter⟩
          rcases hTidy.seat_of_ok hHolds hFree hOpen hRoomLeft
              hAdd with
            ⟨rfl, _⟩
          rcases Except.bind_eq_ok.mp hEnter with
            ⟨told, hTell, hEnd⟩
          cases hEnd
          have hNew : player ∉ room.players := by
            rw [← hTidy.find_iff hHolds, hFree]
            simp
          exact Or.inr ⟨rfl, ptr, Arrives.seated hHolds
            (hTidy.of_holds hHolds).1 hNew hFree hAdd
            (told_of_broadcastRoomList hTell)⟩

/-
  `join_room` changes nothing, or the player has the
  bankroll, leaves his room and is turned away or seated.
-/
theorem joinRoom_moves
    {roomId : UInt64}
    {error : Option ErrorCode}
    (hTidy : lobby.Tidy)
    (hOk : lobby.joinRoom roomId player draws =
      .ok (error, new)) :
    new = lobby ∨
      (lobby.checkPlayerBankroll player = none ∧
        ∃ left,
          lobby.Departs player draws.leaving left ∧
          ((error ≠ none ∧ new = left) ∨
            (error = none ∧ ∃ ptr,
              left.Arrives player draws.starting ptr new))) := by
  unfold joinRoom at hOk
  split at hOk
  · cases hOk
    exact Or.inl rfl
  rename_i hBankroll
  rcases Except.bind_eq_ok.mp hOk with ⟨same, _, hRest⟩
  cases same with
  | true =>
      cases hRest
      exact Or.inl rfl
  | false =>
      rcases Except.bind_eq_ok.mp hRest with
        ⟨left, hLeave, hEnter⟩
      rcases hTidy.leavePresentRoom hLeave with
        ⟨hLeft, hFree⟩
      exact Or.inr ⟨hBankroll, left,
        departs_of_leavePresentRoom hTidy hLeave,
        enterRoom_moves hLeft hFree hEnter⟩

/- `start_game` changes nothing, or a room plays. -/
theorem startGame_plays
    {error : Option ErrorCode}
    (hTidy : lobby.Tidy)
    (hOk : lobby.startGame player shuffles =
      .ok (error, new)) :
    new = lobby ∨ lobby.Plays new := by
  unfold startGame findRoomByPlayer at hOk
  cases hFind : lobby.playerRooms.find player with
  | none =>
      rw [hFind] at hOk
      cases hOk
      exact Or.inl rfl
  | some ptr =>
      rw [hFind] at hOk
      rcases Except.bind_eq_ok.mp hOk with
        ⟨room, hRoom, hRest⟩
      have hHolds := (hTidy.holds_of_find hFind hRoom).1
      rcases Except.bind_eq_ok.mp hRest with
        ⟨⟨code, after, world⟩, hStart, hEnd⟩
      cases code with
      | some code =>
          cases hEnd
          exact Or.inr
            (Plays.started hHolds hStart (Told.refl _))
      | none =>
          rcases Except.bind_eq_ok.mp hEnd with
            ⟨told, hTell, hDone⟩
          cases hDone
          exact Or.inr (Plays.started hHolds hStart
            (told_of_broadcastRoomList hTell))

/- `on_player_action` changes nothing, or a room plays. -/
theorem playerAction_plays
    {action : Action}
    {amount : Option UInt32}
    (hTidy : lobby.Tidy)
    (hOk : lobby.playerAction player action amount shuffles =
      .ok new) :
    new = lobby ∨ lobby.Plays new := by
  unfold playerAction findRoomByPlayer at hOk
  cases hFind : lobby.playerRooms.find player with
  | none =>
      rw [hFind] at hOk
      cases hOk
      exact Or.inl rfl
  | some ptr =>
      rw [hFind] at hOk
      rcases Except.bind_eq_ok.mp hOk with
        ⟨room, hRoom, hRest⟩
      have hHolds := (hTidy.holds_of_find hFind hRoom).1
      rcases Except.bind_eq_ok.mp hRest with
        ⟨⟨after, world⟩, hAct, hEnd⟩
      cases hEnd
      exact Or.inr (Plays.acted hHolds hAct)

/- A game may also be left alone. -/
theorem moves_of_plays
    (hPlays : new = lobby ∨ lobby.Plays new) :
    lobby.Moves new := by
  rcases hPlays with rfl | hPlays
  · exact Moves.nothing
  · exact Moves.plays hPlays

/- Every call is one of these moves. -/
theorem moves_of_ok
    {call : Call}
    (hTidy : lobby.Tidy)
    (hOk : lobby.step call = .ok new) :
    lobby.Moves new := by
  cases call with
  | createRoom name maxPlayers creator draws =>
      rcases Except.map_eq_ok.mp hOk with
        ⟨⟨made, after⟩, hCreate, rfl⟩
      rcases createRoom_moves hTidy hCreate with
        ⟨_, hSame⟩ | ⟨_, left, _, hDeparts, hArrives⟩
      · subst hSame
        exact Moves.nothing
      · exact Moves.makes hDeparts hArrives
  | joinRoom roomId player draws =>
      rcases Except.map_eq_ok.mp hOk with
        ⟨⟨error, after⟩, hJoin, rfl⟩
      rcases joinRoom_moves hTidy hJoin with
        hSame | ⟨_, left, hDeparts, hStays | hArrives⟩
      · subst hSame
        exact Moves.nothing
      · rcases hStays with ⟨_, rfl⟩
        exact Moves.leaves hDeparts
      · rcases hArrives with ⟨_, ptr, hArrives⟩
        exact Moves.enters hDeparts hArrives
  | leaveRoom player shuffles =>
      exact Moves.leaves (departs_of_leaveRoom hTidy hOk)
  | startGame player shuffles =>
      rcases Except.map_eq_ok.mp hOk with
        ⟨⟨error, after⟩, hStart, rfl⟩
      exact moves_of_plays (startGame_plays hTidy hStart)
  | playerAction player action amount shuffles =>
      exact moves_of_plays (playerAction_plays hTidy hOk)

end Inversion

------------------------------------------------------------
-- One Room at a Time
------------------------------------------------------------

/- One room is written back as it has evolved. -/
structure Rewrites
    (lobby : Lobby)
    (ptr : RoomPtr)
    (room after : Room)
    (new : Lobby) : Prop where
  holds : lobby.Holds ptr room
  before : room.InOrder
  inOrder : after.InOrder
  evolves : room.Evolves after lobby.world new.world
  heap : new.heap = lobby.heap.set ptr after
  rooms : new.rooms ⊆ lobby.rooms

section Rewrites

variable {lobby left new : Lobby}
variable {player : ConnId}
variable {shuffles : List Shuffle}

/- A room is dropped from the list, not from the heap. -/
theorem dropIfEmpty_frame
    (lobby : Lobby)
    (ptr : RoomPtr)
    (room : Room) :
    (lobby.dropIfEmpty ptr room).heap = lobby.heap ∧
      (lobby.dropIfEmpty ptr room).rooms ⊆ lobby.rooms ∧
      (lobby.dropIfEmpty ptr room).world = lobby.world := by
  unfold dropIfEmpty
  split
  · exact ⟨rfl, List.filter_subset_self _, rfl⟩
  · exact ⟨rfl, List.Subset.refl _, rfl⟩

/- One room has lost the player. -/
theorem Departs.rewrites
    (hTidy : lobby.Tidy)
    (hDeparts : lobby.Departs player shuffles left) :
    (lobby.playerRooms.find player = none ∧ left = lobby) ∨
      ∃ ptr room after,
        lobby.Rewrites ptr room after left ∧
        player ∈ room.players ∧
        after.players = room.players.erase player := by
  cases hDeparts with
  | outside hFree => exact Or.inl ⟨hFree, rfl⟩
  | @leaving ptr room after removed world left hHolds hMem
      hRemove hTold =>
      have hOrder := (hTidy.of_holds hHolds).1
      rcases hTold with ⟨w, hSent, rfl⟩
      rcases dropIfEmpty_frame
          { lobby.setRoom ptr after world with
            playerRooms := lobby.playerRooms.erase player }
          ptr after with
        ⟨hHeap, hRooms, hWorld⟩
      rw [hWorld] at hSent
      rcases Room.removePlayer_of_ok hOrder hMem hRemove with
        ⟨hAfter, session, hShape⟩
      refine Or.inr ⟨ptr, room, after, ⟨hHolds, hOrder,
        hAfter, ?_, hHeap, hRooms⟩, hMem, by rw [hShape]⟩
      exact (Room.removePlayer_evolves hOrder hMem
        hRemove).told hSent

/- A lobby that lost a player is tidy. -/
theorem Departs.tidy
    (hTidy : lobby.Tidy)
    (hDeparts : lobby.Departs player shuffles left) :
    left.Tidy := by
  cases hDeparts with
  | outside hFree => exact hTidy
  | leaving hHolds hMem hRemove hTold =>
      rcases hTold with ⟨w, _, rfl⟩
      exact (hTidy.unseat_of_ok hHolds hMem hRemove).of_world w

/- One room has gained him. -/
theorem Arrives.rewrites
    {ptr : RoomPtr}
    (hArrives : lobby.Arrives player shuffles ptr new) :
    ∃ room after,
      lobby.Rewrites ptr room after new ∧
      new.rooms = lobby.rooms ∧
      room.gameSession = none ∧
      after.players = room.players ++ [player] := by
  cases hArrives with
  | @seated room after world new hHolds hOrder hNew hFree hAdd
      hTold =>
      rcases hTold with ⟨w, hSent, rfl⟩
      have hSet : (lobby.setRoom ptr after
          world).insertPlayerRoom player ptr = _ :=
        insertPlayerRoom_of_free hFree
      rw [hSet] at hSent ⊢
      rcases Room.addPlayer_of_ok hOrder hNew hAdd with
        ⟨hFalse, _⟩ | ⟨_, hAfter, session, hShape⟩
      · cases hFalse
      · refine ⟨room, after, ⟨hHolds, hOrder, hAfter, ?_, rfl,
          List.Subset.refl _⟩, rfl,
          Room.gameSession_of_added hAdd, by rw [hShape]⟩
        exact (Room.addPlayer_evolves hAdd).told hSent

/- Whoever arrives is put down in his room. -/
theorem Arrives.find
    {ptr : RoomPtr}
    (hArrives : lobby.Arrives player shuffles ptr new) :
    new.findRoomByPlayer player = some ptr := by
  cases hArrives with
  | @seated room after world new hHolds hOrder hNew hFree hAdd
      hTold =>
      rcases hTold with ⟨w, _, rfl⟩
      have hSet : (lobby.setRoom ptr after
          world).insertPlayerRoom player ptr = _ :=
        insertPlayerRoom_of_free hFree
      rw [hSet]
      unfold findRoomByPlayer
      dsimp only
      rw [KeyMap.find_set, if_pos rfl]

/- One room has the players it had. -/
theorem Plays.rewrites
    (hTidy : lobby.Tidy)
    (hPlays : lobby.Plays new) :
    ∃ ptr room after,
      lobby.Rewrites ptr room after new ∧
      after.players = room.players := by
  cases hPlays with
  | @started ptr room after player shuffles error world new
      hHolds hStart hTold =>
      have hOrder := (hTidy.of_holds hHolds).1
      rcases hTold with ⟨w, hSent, rfl⟩
      rcases Room.tryStartGame_of_ok hOrder hStart with
        ⟨session, hShape, hAfter⟩
      refine ⟨ptr, room, after, ⟨hHolds, hOrder, hAfter, ?_,
        rfl, List.Subset.refl _⟩, by rw [hShape]⟩
      exact (Room.tryStartGame_evolves hStart).told hSent
  | @acted ptr room after player action amount shuffles world
      hHolds hAct =>
      have hOrder := (hTidy.of_holds hHolds).1
      rcases Room.onPlayerAction_of_ok hOrder hAct with
        ⟨session, hShape, hAfter⟩
      exact ⟨ptr, room, after, ⟨hHolds, hOrder, hAfter,
        Room.onPlayerAction_evolves hOrder hAct, rfl,
        List.Subset.refl _⟩, by rw [hShape]⟩

end Rewrites

------------------------------------------------------------
-- Properties of Every Room
------------------------------------------------------------

/- Every room of the lobby has a property. -/
def Each
    (lobby : Lobby)
    (P : Room → Prop) : Prop :=
  ∀ ptr room, lobby.Holds ptr room → P room

section Each

variable {lobby new : Lobby}
variable {ptr : RoomPtr}
variable {after : Room}
variable {P : Room → Prop}

/- One room is written back, and the others are as before. -/
theorem Rewrites.each
    {room : Room}
    (hRewrites : lobby.Rewrites ptr room after new)
    (hAfter : P after)
    (hOthers : ∀ q room, q ≠ ptr →
      lobby.Holds q room → P room) :
    new.Each P := by
  rintro q other ⟨hMem, hAt⟩
  rw [hRewrites.heap] at hAt
  by_cases hEq : q = ptr
  · subst hEq
    have hLt := (List.getElem?_eq_some_iff.mp hAt).1
    rw [List.length_set] at hLt
    rw [List.getElem?_set_self hLt] at hAt
    cases hAt
    exact hAfter
  · rw [List.getElem?_set_ne (Ne.symm hEq)] at hAt
    exact hOthers q other hEq ⟨hRewrites.rooms hMem, hAt⟩

/- A room that is made has the property too. -/
theorem Each.makeRoom
    {name : String}
    {maxPlayers : UInt8}
    {player : ConnId}
    (hEach : lobby.Each P)
    (hBelow : ∀ q ∈ lobby.rooms, q < lobby.heap.length)
    (hFresh : P (lobby.freshRoom name maxPlayers player)) :
    (lobby.makeRoom name maxPlayers player).Each P := by
  rintro q room ⟨hMem, hAt⟩
  rcases List.mem_append.mp hMem with hOld | hNew
  · have hSame : lobby.heap[q]? = some room := by
      rw [← hAt]
      exact (List.getElem?_append_left (hBelow q hOld)).symm
    exact hEach q room ⟨hOld, hSame⟩
  · rw [List.mem_singleton.mp hNew] at hAt
    rw [(lobby.holds_makeRoom name maxPlayers player).2]
      at hAt
    cases hAt
    exact hFresh

end Each

end Lobby

end Server

end Poker

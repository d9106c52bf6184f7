import AsciiPoker.Server.GameSession.Recipients
import AsciiPoker.Server.Lobby.Views

/-
  Whom a call of the lobby speaks to.

  A game and its table are spoken of to those who sit there,
  and the room list goes to whoever is registered.

  Main declarations:
    * `Meant`, `World.Sends`
    * `Room.addPlayer_sends`, `Room.removePlayer_sends`
    * `Lobby.Together`, `Lobby.Reaches`
    * `Lobby.createRoom_sends`, `Lobby.joinRoom_sends`,
      `Lobby.leaveRoom_sends`, `Lobby.startGame_sends`,
      `Lobby.playerAction_sends`
-/

namespace Poker

namespace Server

open Protocol

------------------------------------------------------------
-- Letters Meant for Somebody
------------------------------------------------------------

/-
  Who gets a message while `caller` is served: some of it is
  for his mates, some for whoever is listed, and the answers
  are for himself.
-/
def Meant
    (mates listed : ConnId → Prop)
    (caller d : ConnId) : ServerMessage → Prop
| .welcome _ => d = caller
| .error _ => d = caller
| .leftRoom _ => d = caller
| .roomList _ => listed d
| .joinedRoom _ => mates d
| .gameStateUpdate _ => mates d
| .yourTurn _ => mates d
| .handResult _ => mates d
| .actionEvent _ => mates d

/- More mates may be meant, and more listeners. -/
theorem Meant.mono
    {mates mates' listed listed' : ConnId → Prop}
    {caller d : ConnId}
    {msg : ServerMessage}
    (hMeant : Meant mates listed caller d msg)
    (hMates : mates d → mates' d)
    (hListed : listed d → listed' d) :
    Meant mates' listed' caller d msg := by
  cases msg with
  | welcome msg => exact hMeant
  | error msg => exact hMeant
  | leftRoom msg => exact hMeant
  | roomList msg => exact hListed hMeant
  | joinedRoom msg => exact hMates hMeant
  | gameStateUpdate msg => exact hMates hMeant
  | yourTurn msg => exact hMates hMeant
  | handResult msg => exact hMates hMeant
  | actionEvent msg => exact hMates hMeant

/- What a session addresses is for those at its table. -/
theorem GameSession.Addresses.meant
    {s : GameSession}
    {call : Option ConnId}
    {caller d : ConnId}
    {msg : ServerMessage}
    (hAddresses : s.Addresses call d msg)
    (hSelf : ∀ c ∈ call, s.getPlayer c = some caller) :
    Meant (· ∈ s.players) (fun _ => False) caller d msg := by
  cases msg with
  | error msg =>
      rcases hAddresses with ⟨c, hCall, hPlayer⟩
      rw [hSelf c hCall] at hPlayer
      exact (Option.some.inj hPlayer).symm
  | welcome msg => exact hAddresses.elim
  | leftRoom msg => exact hAddresses.elim
  | roomList msg => exact hAddresses
  | joinedRoom msg => exact hAddresses.elim
  | gameStateUpdate msg => exact hAddresses
  | yourTurn msg => exact hAddresses
  | handResult msg => exact hAddresses
  | actionEvent msg => exact hAddresses

namespace World

/- What is sent goes only where it may. -/
def Sends
    (world : World)
    (allowed : ConnId → ServerMessage → Prop)
    (world' : World) : Prop :=
  ∃ more, world'.outbox = world.outbox ++ more ∧
    ∀ letter ∈ more, allowed letter.1 letter.2

variable {world mid world' : World}
variable {allowed wider : ConnId → ServerMessage → Prop}

/- Nothing was sent. -/
theorem Sends.of_outbox
    (hSame : world'.outbox = world.outbox) :
    world.Sends allowed world' :=
  ⟨[], by rw [hSame, List.append_nil], by simp⟩

/- First these messages, then those. -/
theorem Sends.trans
    (hFirst : world.Sends allowed mid)
    (hSecond : mid.Sends allowed world') :
    world.Sends allowed world' := by
  rcases hFirst with ⟨letters, hOutbox, hAllowed⟩
  rcases hSecond with ⟨more, hMore, hAllowedMore⟩
  refine ⟨letters ++ more, ?_, ?_⟩
  · rw [hMore, hOutbox, List.append_assoc]
  · rw [List.forall_mem_append]
    exact ⟨hAllowed, hAllowedMore⟩

/- What is allowed by less is allowed by more. -/
theorem Sends.mono
    (hSends : world.Sends allowed world')
    (hWider : ∀ d msg, allowed d msg → wider d msg) :
    world.Sends wider world' := by
  rcases hSends with ⟨letters, hOutbox, hAllowed⟩
  exact ⟨letters, hOutbox,
    fun letter hMem => hWider _ _ (hAllowed letter hMem)⟩

/- One message. -/
theorem sends_send
    {d : ConnId}
    {msg : ServerMessage}
    (hAllowed : allowed d msg) :
    world.Sends allowed (world.send d msg) := by
  refine ⟨[(d, msg)], rfl, fun letter hMem => ?_⟩
  rw [List.mem_singleton.mp hMem]
  exact hAllowed

/- The same message to each of a list. -/
theorem sends_foldl_send
    {connections : List ConnId}
    {msg : ServerMessage}
    (hAllowed : ∀ d ∈ connections, allowed d msg) :
    world.Sends allowed (connections.foldl
      (fun world connection => world.send connection msg)
      world) := by
  refine ⟨_, outbox_foldl_send connections msg world, ?_⟩
  intro letter hMem
  rcases List.mem_map.mp hMem with ⟨d, hd, rfl⟩
  exact hAllowed d hd

/- What a session did is sent to those at its table. -/
theorem sends_performSince
    {s t : GameSession}
    {call : Option ConnId}
    {caller : ConnId}
    (hSpoke : s.Spoke call t)
    (hSelf : ∀ c ∈ call, s.getPlayer c = some caller) :
    world.Sends (Meant (· ∈ s.players) (fun _ => False) caller)
      (world.performSince s t) := by
  rcases hSpoke with ⟨_, entries, hLog, hSpeaks⟩
  have hNew : t.log.drop s.log.length = entries := by
    rw [hLog]
    exact List.drop_left
  unfold performSince
  rw [hNew]
  refine ⟨_, foldl_perform_outbox entries world, ?_⟩
  exact fun letter hMem => (hSpeaks letter hMem).meant hSelf

end World

------------------------------------------------------------
-- Calls of a Session
------------------------------------------------------------

namespace Config

variable {c d : Config}
variable {t : GameSession}
variable {e : Event}
variable {shuffles : List Shuffle}

/- Nobody calls while a call is carried out. -/
theorem spoke_of_finish
    (hFinish : c.finish shuffles = .ok t) :
    c.session.Spoke none t := by
  rcases finish_run hFinish with ⟨later, run, hProceeds⟩
  have hKeep : ∀ (b : Config) e d,
      c.session.Spoke none b.session →
      (∃ shuffle, e = .proceed shuffle) →
      b.step e = .ok d → c.session.Spoke none d.session := by
    rintro b _ d hSpoke ⟨shuffle, rfl⟩ hOk
    exact hSpoke.trans (spoke_of_ok hOk)
  have hSpoke := Transition.Run.invariant hKeep run hProceeds
    (GameSession.Spoke.refl c.session none)
  exact hSpoke

/- A call of a session, carried out to its end. -/
theorem spoke_of_called
    (hOk : c.step e = .ok d)
    (hFinish : d.finish shuffles = .ok t) :
    c.session.Spoke e.connection? t :=
  (spoke_of_ok hOk).trans (spoke_of_finish hFinish)

end Config

------------------------------------------------------------
-- Calls of a Room
------------------------------------------------------------

/- What is for those at one table. -/
def AtTable
    (players : List ConnId)
    (caller : ConnId) : ConnId → ServerMessage → Prop :=
  Meant (· ∈ players) (fun _ => False) caller

namespace Room

variable {room after : Room}
variable {world world' : World}
variable {player : ConnId}
variable {shuffles : List Shuffle}

/- The roster goes to those in the room. -/
theorem notifyAllAboutJoined_sends
    (room : Room)
    (world : World)
    (player : ConnId) :
    world.Sends (AtTable room.players player)
      (room.notifyAllAboutJoined world) :=
  World.sends_foldl_send fun _ hd => hd

/- A session sends to those it was made for. -/
theorem startGame_sends
    {error : Option ErrorCode}
    (hOk : room.startGame world shuffles =
      .ok (error, after, world')) :
    world.Sends (AtTable room.players player) world' := by
  unfold startGame at hOk
  split at hOk
  · cases hOk
    exact World.Sends.of_outbox rfl
  · split at hOk
    · cases hOk
      exact World.Sends.of_outbox rfl
    · rcases Except.bind_eq_ok.mp hOk with
        ⟨session, hFinish, hRest⟩
      cases hRest
      exact World.sends_performSince
        (Config.spoke_of_finish hFinish) (by simp)

/- A refusal is returned and not sent. -/
theorem tryStartGame_sends
    {error : Option ErrorCode}
    (hOk : room.tryStartGame world player shuffles =
      .ok (error, after, world')) :
    world.Sends (AtTable room.players player) world' := by
  unfold tryStartGame at hOk
  split at hOk
  · cases hOk
    exact World.Sends.of_outbox rfl
  · split at hOk
    · cases hOk
      exact World.Sends.of_outbox rfl
    · split at hOk
      · cases hOk
        exact World.Sends.of_outbox rfl
      · exact startGame_sends hOk

/- Those who are there already and whoever comes. -/
theorem addPlayer_sends
    (hOk : room.addPlayer world player shuffles =
      .ok (true, after, world')) :
    world.Sends (AtTable after.players player) world' := by
  unfold addPlayer at hOk
  split at hOk
  · cases hOk
  · split at hOk
    · cases hOk
    · have hJoined := notifyAllAboutJoined_sends
        { room with players := room.players ++ [player] }
        world player
      dsimp only at hOk
      split at hOk
      · rcases Except.bind_eq_ok.mp hOk with
          ⟨⟨error, started, w⟩, hStart, hRest⟩
        cases hRest
        rcases startGame_session hStart with ⟨session, rfl⟩
        exact hJoined.trans (startGame_sends hStart)
      · cases hOk
        exact hJoined

/- A call of a session by somebody at its table. -/
theorem called_sends
    {players : List ConnId}
    {s t called : GameSession}
    {pending : Pending}
    {e : Event}
    (hServes : s.Serves players)
    (hMem : player ∈ players)
    (hCaller : e.connection? = some player)
    (hStep : Config.step ⟨s, .done⟩ e = .ok ⟨called, pending⟩)
    (hFinish : Config.finish ⟨called, pending⟩ shuffles =
      .ok t) :
    world.Sends (AtTable players player)
      (world.performSince s t) := by
  have hSpoke := Config.spoke_of_called hStep hFinish
  have hSelf : ∀ c ∈ e.connection?,
      s.getPlayer c = some player := by
    rw [hCaller]
    intro c hc
    cases hc
    exact hServes.mapped player hMem
  have hSends : world.Sends (AtTable s.players player)
      (world.performSince s t) :=
    World.sends_performSince hSpoke hSelf
  rw [hServes.players_eq] at hSends
  exact hSends

/- Whoever leaves may still be told of his hand. -/
theorem removeFromSession_sends
    (hOrder : room.InOrder)
    (hMem : player ∈ room.players)
    (hOk : room.removeFromSession world player shuffles =
      .ok (after, world')) :
    (∃ session, after = { room with gameSession := session }) ∧
      world.Sends (AtTable room.players player) world' := by
  unfold removeFromSession at hOk
  cases hHas : room.gameSession with
  | none =>
      rw [hHas] at hOk
      cases hOk
      exact ⟨⟨_, rfl⟩, World.Sends.of_outbox rfl⟩
  | some s =>
      rw [hHas] at hOk
      rcases Except.bind_eq_ok.mp hOk with
        ⟨⟨called, pending⟩, hCall, hFinished⟩
      rcases Except.bind_eq_ok.mp hFinished with
        ⟨t, hFinish, hKept⟩
      cases hKept
      have hServes := hOrder.served s hHas
      have hStep : Config.step ⟨s, .done⟩
          (.removePlayer player) = .ok ⟨called, pending⟩ := by
        simp [Config.step, hServes.idle, hCall]
      exact ⟨⟨_, rfl⟩,
        called_sends hServes hMem rfl hStep hFinish⟩

/- Those who stay, and whoever leaves. -/
theorem removePlayer_sends
    {removed : Bool}
    (hOrder : room.InOrder)
    (hMem : player ∈ room.players)
    (hOk : room.removePlayer world player shuffles =
      .ok (removed, after, world')) :
    world.Sends (AtTable room.players player) world' := by
  unfold removePlayer at hOk
  rw [if_neg (by simpa using hMem)] at hOk
  rcases Except.bind_eq_ok.mp hOk with
    ⟨⟨called, w⟩, hSession, hRest⟩
  rcases removeFromSession_sends hOrder hMem hSession with
    ⟨⟨session, rfl⟩, hFirst⟩
  dsimp only at hRest
  split at hRest
  · cases hRest
    refine hFirst.trans ((notifyAllAboutJoined_sends
      _ w player).mono fun d msg hMeant => ?_)
    exact hMeant.mono List.mem_of_mem_erase False.elim
  · cases hRest
    exact hFirst

/- A move is told at the table. -/
theorem onPlayerAction_sends
    {action : Action}
    {amount : Option UInt32}
    (hOrder : room.InOrder)
    (hMem : player ∈ room.players)
    (hOk : room.onPlayerAction world player action amount
      shuffles = .ok (after, world')) :
    world.Sends (AtTable room.players player) world' := by
  unfold onPlayerAction at hOk
  cases hHas : room.gameSession with
  | none =>
      rw [hHas] at hOk
      cases hOk
      exact World.Sends.of_outbox rfl
  | some s =>
      rw [hHas] at hOk
      rcases Except.bind_eq_ok.mp hOk with
        ⟨⟨called, pending⟩, hCall, hRest⟩
      rcases Except.bind_eq_ok.mp hRest with
        ⟨t, hFinish, hKept⟩
      cases hKept
      have hServes := hOrder.served s hHas
      have hStep : Config.step ⟨s, .done⟩
          (.applyAction player action amount) =
            .ok ⟨called, pending⟩ := by
        simp [Config.step, hServes.idle, hCall]
      exact called_sends hServes hMem rfl hStep hFinish

end Room

------------------------------------------------------------
-- Calls of the Lobby
------------------------------------------------------------

namespace Lobby

variable {lobby left new : Lobby}
variable {player c d : ConnId}
variable {ptr : RoomPtr}
variable {room after : Room}
variable {draws : Draws}
variable {shuffles : List Shuffle}

/- Both sit in one room. -/
def Together
    (lobby : Lobby)
    (c d : ConnId) : Prop :=
  ∃ ptr, lobby.playerRooms.find c = some ptr ∧
    lobby.playerRooms.find d = some ptr

/- The connection is in the registry. -/
def Registered
    (lobby : Lobby)
    (d : ConnId) : Prop :=
  ∃ connections ∈ lobby.connectionRegistry, d ∈ connections

/- Those whom a call that leads to `new` may speak to. -/
def Reaches
    (lobby new : Lobby)
    (caller : ConnId) : ConnId → ServerMessage → Prop :=
  Meant
    (fun d => lobby.Together caller d ∨ new.Together caller d)
    lobby.Registered caller

/- Those in a room have the same pointer. -/
theorem Tidy.together
    (hTidy : lobby.Tidy)
    (hHolds : lobby.Holds ptr room)
    (hc : c ∈ room.players)
    (hd : d ∈ room.players) :
    lobby.Together c d :=
  ⟨ptr, (hTidy.find_iff hHolds c).mpr hc,
    (hTidy.find_iff hHolds d).mpr hd⟩

/- The room list is the last thing that a call sends. -/
theorem sends_broadcast
    {mid : Lobby}
    {allowed : ConnId → ServerMessage → Prop}
    (hSends : lobby.world.Sends allowed mid.world)
    (hRegistry : mid.connectionRegistry =
      lobby.connectionRegistry)
    (hAllowed : ∀ d roomList, lobby.Registered d →
      allowed d (.roomList roomList))
    (hOk : mid.broadcastRoomList = .ok new) :
    lobby.world.Sends allowed new.world := by
  refine hSends.trans ?_
  unfold broadcastRoomList at hOk
  split at hOk
  · cases hOk
    exact World.Sends.of_outbox rfl
  · rename_i connections hSome
    rcases Except.bind_eq_ok.mp hOk with
      ⟨roomList, hList, hRest⟩
    cases hRest
    rw [hRegistry] at hSome
    exact World.sends_foldl_send fun d hd =>
      hAllowed d roomList ⟨connections, hSome, hd⟩

------------------------------------------------------------
-- Leaving
------------------------------------------------------------

/- Those who sat with the leaver hear of it. -/
theorem leaveRoom_sends
    (hTidy : lobby.Tidy)
    (hOk : lobby.leaveRoom player shuffles = .ok new) :
    lobby.world.Sends
      (Meant (lobby.Together player) lobby.Registered player)
      new.world := by
  unfold leaveRoom at hOk
  cases hFind : lobby.playerRooms.find player with
  | none =>
      rw [hFind] at hOk
      cases hOk
      exact World.Sends.of_outbox rfl
  | some ptr =>
      rw [hFind] at hOk
      rcases Except.bind_eq_ok.mp hOk with
        ⟨room, hRoom, hRest⟩
      rcases hTidy.holds_of_find hFind hRoom with
        ⟨hHolds, hMem⟩
      rcases Except.bind_eq_ok.mp hRest with
        ⟨⟨removed, after, world⟩, hRemove, hTell⟩
      have hLeaves := (Room.removePlayer_sends
        (hTidy.of_holds hHolds).1 hMem hRemove).mono
          fun d msg hMeant => hMeant.mono
            (hTidy.together hHolds hMem)
            (False.elim : False → lobby.Registered d)
      refine sends_broadcast ?_ ?_ ?_ hTell
      · unfold dropIfEmpty
        split
        · exact hLeaves
        · exact hLeaves
      · unfold dropIfEmpty
        split
        · rfl
        · rfl
      · exact fun _ _ hThere => hThere

/- Without a room nothing is sent. -/
theorem leavePresentRoom_sends
    (hTidy : lobby.Tidy)
    (hOk : lobby.leavePresentRoom player shuffles =
      .ok new) :
    lobby.world.Sends
      (Meant (lobby.Together player) lobby.Registered player)
      new.world := by
  unfold leavePresentRoom at hOk
  split at hOk
  · exact leaveRoom_sends hTidy hOk
  · cases hOk
    exact World.Sends.of_outbox rfl

/- Messages register nobody. -/
theorem Told.registry_eq
    (hTold : lobby.Told new) :
    new.connectionRegistry = lobby.connectionRegistry := by
  rcases hTold with ⟨_, _, rfl⟩
  rfl

/- Nor does a departure. -/
theorem Departs.registry_eq
    (hDeparts : lobby.Departs player shuffles new) :
    new.connectionRegistry = lobby.connectionRegistry := by
  cases hDeparts with
  | outside hFree => rfl
  | leaving hHolds hMem hRemove hTold =>
      rw [hTold.registry_eq]
      unfold dropIfEmpty
      split
      · rfl
      · rfl

------------------------------------------------------------
-- Entering
------------------------------------------------------------

/- Those he comes to sit with hear of whoever enters. -/
theorem seat_sends
    {world : World}
    {told : Lobby}
    (hTidy : told.Tidy)
    (hHolds : lobby.Holds ptr room)
    (hPlayers : after.players = room.players ++ [player])
    (hAdd : room.addPlayer lobby.world player shuffles =
      .ok (true, after, world))
    (hTell : ((lobby.setRoom ptr after world).insertPlayerRoom
      player ptr).broadcastRoomList = .ok told) :
    lobby.world.Sends
      (Meant (told.Together player) lobby.Registered player)
      told.world := by
  have hMem : player ∈ after.players := by
    rw [hPlayers]
    exact List.mem_append_right _ (List.mem_singleton_self _)
  have hStays : told.Holds ptr after := by
    rcases told_of_broadcastRoomList hTell with ⟨_, _, rfl⟩
    have hLt := (List.getElem?_eq_some_iff.mp hHolds.2).1
    have hAt := List.getElem?_set_self (a := after) hLt
    unfold insertPlayerRoom
    split
    · exact ⟨hHolds.1, hAt⟩
    · exact ⟨hHolds.1, hAt⟩
  have hEnters := (Room.addPlayer_sends hAdd).mono
    fun d msg hMeant => hMeant.mono
      (hTidy.together hStays hMem)
      (False.elim : False → lobby.Registered d)
  refine sends_broadcast ?_ ?_ ?_ hTell
  · unfold insertPlayerRoom
    split
    · exact hEnters
    · exact hEnters
  · unfold insertPlayerRoom
    split
    · rfl
    · rfl
  · exact fun _ _ hThere => hThere

/- One room is left and another is entered. -/
theorem sends_through
    (hLeaves : lobby.world.Sends
      (Meant (lobby.Together player) lobby.Registered player)
      left.world)
    (hRegistry : left.connectionRegistry =
      lobby.connectionRegistry)
    (hEnters : left.world.Sends
      (Meant (new.Together player) left.Registered player)
      new.world) :
    lobby.world.Sends (lobby.Reaches new player) new.world := by
  have hStays : ∀ d, left.Registered d → lobby.Registered d := by
    intro d hThere
    unfold Registered at hThere
    rw [hRegistry] at hThere
    exact hThere
  exact (hLeaves.mono fun d msg hMeant =>
      hMeant.mono Or.inl id).trans
    (hEnters.mono fun d msg hMeant =>
      hMeant.mono Or.inr (hStays d))

/- The old room is told, and then the new one. -/
theorem createRoom_sends
    {name : String}
    {maxPlayers : UInt8}
    {made : Option RoomPtr}
    (hTidy : lobby.Tidy)
    (hOk : lobby.createRoom name maxPlayers player draws =
      .ok (made, new)) :
    lobby.world.Sends (lobby.Reaches new player)
      new.world := by
  have hStep : lobby.step
      (.createRoom name maxPlayers player draws) = .ok new := by
    simp [step, hOk, Except.map]
  have hNew : new.Tidy := hTidy.step hStep
  unfold createRoom at hOk
  split at hOk
  · cases hOk
    exact World.Sends.of_outbox rfl
  rename_i hMax
  split at hOk
  · cases hOk
    exact World.Sends.of_outbox rfl
  have hTwo : 2 ≤ maxPlayers.toNat := Nat.le_of_not_lt hMax
  rcases Except.bind_eq_ok.mp hOk with ⟨left, hLeave, hRest⟩
  rcases Except.bind_eq_ok.mp hRest with
    ⟨room, hRoom, hEnter⟩
  rcases Except.bind_eq_ok.mp hEnter with
    ⟨⟨added, after, world⟩, hAdd, hInsert⟩
  rcases Except.bind_eq_ok.mp hInsert with
    ⟨told, hTell, hEnd⟩
  cases hEnd
  have hFresh := freshRoom_of_ok hRoom
  subst hFresh
  rcases Room.addPlayer_of_ok (freshRoom_inOrder hTwo)
      (by simp [freshRoom]) hAdd with
    ⟨_, _, _, hStarted | hFull⟩ |
      ⟨rfl, _, session, hShape⟩
  · simp [freshRoom] at hStarted
  · simp only [freshRoom, List.length_nil] at hFull
    omega
  · have hEnters := seat_sends hNew
      (left.holds_makeRoom name maxPlayers player)
      (by rw [hShape]) hAdd hTell
    exact sends_through (leavePresentRoom_sends hTidy hLeave)
      (departs_of_leavePresentRoom hTidy hLeave).registry_eq
      hEnters

/- Only the room that is entered is told. -/
theorem enterRoom_sends
    {roomId : UInt64}
    {error : Option ErrorCode}
    (hTidy : lobby.Tidy)
    (hNew : new.Tidy)
    (hFree : lobby.playerRooms.find player = none)
    (hOk : lobby.enterRoom roomId player shuffles =
      .ok (error, new)) :
    lobby.world.Sends
      (Meant (new.Together player) lobby.Registered player)
      new.world := by
  unfold Lobby.enterRoom at hOk
  rcases Except.bind_eq_ok.mp hOk with ⟨found, hGet, hRest⟩
  cases found with
  | none =>
      cases hRest
      exact World.Sends.of_outbox rfl
  | some ptr =>
      rcases Except.bind_eq_ok.mp hRest with
        ⟨room, hRoom, hChecks⟩
      have hHolds : lobby.Holds ptr room :=
        ⟨mem_of_findRoom hGet, require_eq_ok.mp hRoom⟩
      split at hChecks
      · cases hChecks
        exact World.Sends.of_outbox rfl
      rename_i hOpen
      split at hChecks
      · cases hChecks
        exact World.Sends.of_outbox rfl
      rename_i hRoomLeft
      rcases Except.bind_eq_ok.mp hChecks with
        ⟨⟨added, after, world⟩, hAdd, hEnter⟩
      rcases hTidy.seat_of_ok hHolds hFree hOpen hRoomLeft
          hAdd with
        ⟨rfl, _⟩
      rcases Except.bind_eq_ok.mp hEnter with
        ⟨told, hTell, hEnd⟩
      cases hEnd
      rcases Room.addPlayer_of_ok (hTidy.of_holds hHolds).1
          (hTidy.away hFree hHolds) hAdd with
        ⟨hFalse, _⟩ | ⟨_, _, session, hShape⟩
      · cases hFalse
      · exact seat_sends hNew hHolds (by rw [hShape]) hAdd
          hTell

/- The room that is left and the one that is entered. -/
theorem joinRoom_sends
    {roomId : UInt64}
    {error : Option ErrorCode}
    (hTidy : lobby.Tidy)
    (hOk : lobby.joinRoom roomId player draws =
      .ok (error, new)) :
    lobby.world.Sends (lobby.Reaches new player)
      new.world := by
  have hStep : lobby.step
      (.joinRoom roomId player draws) = .ok new := by
    simp [step, hOk, Except.map]
  have hNew : new.Tidy := hTidy.step hStep
  unfold joinRoom at hOk
  split at hOk
  · cases hOk
    exact World.Sends.of_outbox rfl
  rcases Except.bind_eq_ok.mp hOk with ⟨same, _, hRest⟩
  cases same with
  | true =>
      cases hRest
      exact World.Sends.of_outbox rfl
  | false =>
      rcases Except.bind_eq_ok.mp hRest with
        ⟨left, hLeave, hEnter⟩
      rcases hTidy.leavePresentRoom hLeave with
        ⟨hLeft, hFree⟩
      exact sends_through (leavePresentRoom_sends hTidy hLeave)
        (departs_of_leavePresentRoom hTidy hLeave).registry_eq
        (enterRoom_sends hLeft hNew hFree hEnter)

------------------------------------------------------------
-- Playing
------------------------------------------------------------

/- The players of the room, and the listeners. -/
theorem startGame_sends
    {error : Option ErrorCode}
    (hTidy : lobby.Tidy)
    (hOk : lobby.startGame player shuffles =
      .ok (error, new)) :
    lobby.world.Sends (lobby.Reaches new player)
      new.world := by
  unfold startGame findRoomByPlayer at hOk
  cases hFind : lobby.playerRooms.find player with
  | none =>
      rw [hFind] at hOk
      cases hOk
      exact World.Sends.of_outbox rfl
  | some ptr =>
      rw [hFind] at hOk
      rcases Except.bind_eq_ok.mp hOk with
        ⟨room, hRoom, hRest⟩
      rcases hTidy.holds_of_find hFind hRoom with
        ⟨hHolds, hMem⟩
      rcases Except.bind_eq_ok.mp hRest with
        ⟨⟨code, after, world⟩, hStart, hEnd⟩
      have hStarts : ∀ last : Lobby, lobby.world.Sends
          (lobby.Reaches last player) world := by
        intro last
        refine (Room.tryStartGame_sends hStart).mono ?_
        intro d msg hMeant
        exact hMeant.mono
          (fun hd => Or.inl (hTidy.together hHolds hMem hd))
          False.elim
      cases code with
      | some code =>
          cases hEnd
          exact hStarts _
      | none =>
          rcases Except.bind_eq_ok.mp hEnd with
            ⟨told, hTell, hDone⟩
          cases hDone
          refine sends_broadcast ?_ ?_ ?_ hTell
          · exact hStarts _
          · rfl
          · exact fun _ _ hThere => hThere

/- The players of the room alone. -/
theorem playerAction_sends
    {action : Action}
    {amount : Option UInt32}
    (hTidy : lobby.Tidy)
    (hOk : lobby.playerAction player action amount shuffles =
      .ok new) :
    lobby.world.Sends (lobby.Reaches new player)
      new.world := by
  unfold playerAction findRoomByPlayer at hOk
  cases hFind : lobby.playerRooms.find player with
  | none =>
      rw [hFind] at hOk
      cases hOk
      exact World.Sends.of_outbox rfl
  | some ptr =>
      rw [hFind] at hOk
      rcases Except.bind_eq_ok.mp hOk with
        ⟨room, hRoom, hRest⟩
      rcases hTidy.holds_of_find hFind hRoom with
        ⟨hHolds, hMem⟩
      rcases Except.bind_eq_ok.mp hRest with
        ⟨⟨after, world⟩, hAct, hEnd⟩
      cases hEnd
      refine (Room.onPlayerAction_sends
        (hTidy.of_holds hHolds).1 hMem hAct).mono ?_
      intro d msg hMeant
      exact hMeant.mono
        (fun hd => Or.inl (hTidy.together hHolds hMem hd))
        False.elim

end Lobby

end Server

end Poker

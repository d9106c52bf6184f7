import AsciiPoker.Server.GameSession.Script
import AsciiPoker.Server.Lobby.Moves

/-
  What the connections were last told of the rooms.

  Every change of a room ends with `notify_all_about_joined`
  to those who sit in it, and every change of the room list
  with `broadcast_room_list`.  `Lobby.Posted` is what holds
  before that broadcast and `Lobby.Informed` what holds
  after it.

  Main declarations:
    * `roomList?`, `joinedRoom?`
    * `Room.ShownBy`, `Room.Shown`
    * `Lobby.Posted`, `Lobby.Informed`
    * `Lobby.Informed.step`
-/

namespace Poker

namespace Server

open Protocol

------------------------------------------------------------
-- Letters of the Lobby
------------------------------------------------------------

/- The room list that a message carries. -/
def roomList? : ServerMessage → Option RoomList
| .roomList roomList => some roomList
| _ => none

/- The room that a message says was joined. -/
def joinedRoom? : ServerMessage → Option JoinedRoom
| .joinedRoom joined => some joined
| _ => none

theorem roomList?_of_inGame
    {msg : ServerMessage}
    (hGame : InGame msg) :
    roomList? msg = none := by
  cases msg with
  | roomList roomList => cases hGame
  | _ => rfl

theorem joinedRoom?_of_inGame
    {msg : ServerMessage}
    (hGame : InGame msg) :
    joinedRoom? msg = none := by
  cases msg with
  | joinedRoom joined => cases hGame
  | _ => rfl

namespace World

/- Nothing is sent but what sessions send. -/
def Gossips
    (world world' : World) : Prop :=
  world'.names = world.names ∧
    ∃ more, world'.outbox = world.outbox ++ more ∧
      AllInGame more

/- Who sends nothing sends nothing about rooms. -/
theorem Gossips.refl
    (world : World) :
    world.Gossips world :=
  ⟨rfl, [], (List.append_nil _).symm, allInGame_nil⟩

/- What a session did is what it had to say. -/
theorem foldl_perform_outbox
    (entries : List Effect)
    (world : World) :
    (entries.foldl perform world).outbox =
      world.outbox ++ entries.filterMap Effect.letter := by
  induction entries generalizing world with
  | nil => exact (List.append_nil _).symm
  | cons entry entries ih =>
      rw [List.foldl_cons, ih]
      cases entry with
      | send player msg =>
          simp [perform, send, Effect.letter]
      | updateChips username chips => rfl

/- A session says nothing about rooms. -/
theorem performSince_gossips
    {s t : GameSession}
    (world : World)
    (hGoes : s.GoesOn t) :
    world.Gossips (world.performSince s t) := by
  rcases hGoes with ⟨entries, hLog, hGame⟩
  have hNew : t.log.drop s.log.length = entries := by
    rw [hLog]
    exact List.drop_left
  unfold performSince
  rw [hNew]
  refine ⟨?_, _, foldl_perform_outbox entries world, hGame⟩
  clear hLog hNew hGame
  induction entries generalizing world with
  | nil => rfl
  | cons entry entries ih =>
      rw [List.foldl_cons, ih]
      cases entry with
      | send player msg => rfl
      | updateChips username chips => rfl

/- A message to each of the connections. -/
theorem outbox_foldl_send
    (connections : List ConnId)
    (msg : ServerMessage)
    (world : World) :
    (connections.foldl
        (fun world connection => world.send connection msg)
        world).outbox =
      world.outbox ++
        Mailbox.toAll connections fun _ => msg := by
  induction connections generalizing world with
  | nil => exact (List.append_nil _).symm
  | cons c cs ih =>
      rw [List.foldl_cons, ih]
      simp [send, Mailbox.toAll]

end World

------------------------------------------------------------
-- What the Players of a Room Were Shown
------------------------------------------------------------

namespace Room

/- The message shows the room as it is. -/
structure ShownBy
    (room : Room)
    (world : World)
    (joined : JoinedRoom) : Prop where
  roomId : joined.roomId = room.id
  playerNames : joined.playerNames =
    room.getAllPlayersNames world
  hostName : joined.hostName = world.names room.host
  maxPlayers : joined.maxPlayers = room.maxPlayers

/- Everybody in the room was last shown it as it is. -/
def Shown
    (room : Room)
    (world : World) : Prop :=
  ∀ c ∈ room.players, ∃ joined,
    Mailbox.last joinedRoom? c world.outbox = some joined ∧
      room.ShownBy world joined

/-
  What a call of a room sends: a room list to nobody, and
  what was joined only to those who sit in it.
-/
structure Posts
    (after : Room)
    (world world' : World) : Prop where
  names : world'.names = world.names
  letters : ∃ more,
    world'.outbox = world.outbox ++ more ∧
      (∀ c, Mailbox.picked roomList? c more = []) ∧
      ∀ c ∉ after.players,
        Mailbox.picked joinedRoom? c more = []

variable {room after : Room}
variable {world mid world' : World}
variable {player : ConnId}
variable {shuffles : List Shuffle}

theorem posts_of_gossips
    (after : Room)
    (hGossips : world.Gossips world') :
    after.Posts world world' := by
  rcases hGossips with ⟨hNames, more, hOutbox, hGame⟩
  refine ⟨hNames, more, hOutbox, ?_, ?_⟩
  · intro c
    apply Mailbox.picked_eq_nil
    exact fun m hMem => roomList?_of_inGame (hGame _ hMem)
  · intro c _
    apply Mailbox.picked_eq_nil
    exact fun m hMem => joinedRoom?_of_inGame (hGame _ hMem)

theorem Posts.trans
    (hFirst : after.Posts world mid)
    (hSecond : after.Posts mid world') :
    after.Posts world world' := by
  rcases hFirst with ⟨hNames, more, hOutbox, hLists, hJoined⟩
  rcases hSecond with
    ⟨hNames', more', hOutbox', hLists', hJoined'⟩
  refine ⟨hNames'.trans hNames, more ++ more', ?_, ?_, ?_⟩
  · rw [hOutbox', hOutbox, List.append_assoc]
  · intro c
    rw [Mailbox.picked_append, hLists, hLists']
    rfl
  · intro c hNot
    rw [Mailbox.picked_append, hJoined c hNot,
      hJoined' c hNot]
    rfl

/- One message for each player, in the order of the seats. -/
theorem notifyAllAboutJoined_outbox
    (room : Room)
    (world : World) :
    (room.notifyAllAboutJoined world).outbox =
      world.outbox ++ Mailbox.toAll room.players fun _ =>
        .joinedRoom (room.makeJoinedRoomMessage world) :=
  World.outbox_foldl_send _ _ _

theorem notifyAllAboutJoined_names
    (room : Room)
    (world : World) :
    (room.notifyAllAboutJoined world).names =
      world.names := by
  rcases notifyAllAboutJoined_told room world with
    ⟨outbox, hEq⟩
  rw [hEq]

theorem notifyAllAboutJoined_posts
    (hPlayers : room.players = after.players) :
    after.Posts world (room.notifyAllAboutJoined world) := by
  refine ⟨notifyAllAboutJoined_names room world, _,
    notifyAllAboutJoined_outbox room world, ?_, ?_⟩
  · exact fun c => Mailbox.picked_toAll_of_none fun _ => rfl
  · intro c hNot
    rw [← hPlayers] at hNot
    exact Mailbox.picked_toAll_of_notMem hNot

/- Whoever was notified was shown the room. -/
theorem notifyAllAboutJoined_shown
    (room : Room)
    (world : World) :
    room.Shown (room.notifyAllAboutJoined world) := by
  intro c hMem
  refine ⟨room.makeJoinedRoomMessage world, ?_, ?_⟩
  · rw [notifyAllAboutJoined_outbox]
    apply Mailbox.last_append_of_some
    exact Mailbox.last_toAll hMem rfl
  · have hNames := notifyAllAboutJoined_names room world
    refine ⟨rfl, ?_, ?_, rfl⟩
    · unfold getAllPlayersNames
      rw [hNames]
      rfl
    · rw [hNames]
      rfl

/- Only the session of a room is not shown. -/
theorem Shown.congr
    (hShown : room.Shown world)
    (hId : after.id = room.id)
    (hPlayers : after.players = room.players)
    (hHost : after.host = room.host)
    (hMax : after.maxPlayers = room.maxPlayers) :
    after.Shown world := by
  intro c hMem
  rw [hPlayers] at hMem
  rcases hShown c hMem with
    ⟨joined, hLast, hRoomId, hNames, hHostName, hLimit⟩
  refine ⟨joined, hLast, ?_, ?_, ?_, ?_⟩
  · rw [hId, hRoomId]
  · rw [hNames]
    unfold getAllPlayersNames
    rw [hPlayers]
  · rw [hHost, hHostName]
  · rw [hMax, hLimit]

/- What was shown is still so when nothing is shown later. -/
theorem Shown.of_outbox
    {more : List (ConnId × ServerMessage)}
    (hShown : room.Shown world)
    (hNames : ∀ c ∈ room.players, world'.names c =
      world.names c)
    (hHost : world'.names room.host = world.names room.host)
    (hOutbox : world'.outbox = world.outbox ++ more)
    (hNone : ∀ c ∈ room.players,
      Mailbox.picked joinedRoom? c more = []) :
    room.Shown world' := by
  intro c hMem
  rcases hShown c hMem with
    ⟨joined, hLast, hId, hPlayers, hHostName, hMax⟩
  refine ⟨joined, ?_, hId, ?_, ?_, hMax⟩
  · rw [hOutbox, Mailbox.last_append_of_nil (hNone c hMem)]
    exact hLast
  · rw [hPlayers]
    exact List.map_congr_left fun d hd => (hNames d hd).symm
  · rw [hHost, hHostName]

theorem Shown.gossips
    (hShown : room.Shown world)
    (hGossips : world.Gossips world') :
    room.Shown world' := by
  rcases hGossips with ⟨hNames, more, hOutbox, hGame⟩
  refine hShown.of_outbox (fun c _ => congrFun hNames c)
    (congrFun hNames room.host) hOutbox fun c _ => ?_
  apply Mailbox.picked_eq_nil
  exact fun m hMem => joinedRoom?_of_inGame (hGame _ hMem)

------------------------------------------------------------
-- Calls of a Room
------------------------------------------------------------

/- A game that starts tells of nothing but itself. -/
theorem startGame_gossips
    {error : Option ErrorCode}
    (hOk : room.startGame world shuffles =
      .ok (error, after, world')) :
    world.Gossips world' := by
  unfold startGame at hOk
  split at hOk
  · cases hOk
    exact World.Gossips.refl world
  · split at hOk
    · cases hOk
      exact World.Gossips.refl world
    · rcases Except.bind_eq_ok.mp hOk with
        ⟨session, hFinish, hRest⟩
      cases hRest
      rcases Config.finish_run hFinish with ⟨later, run, _⟩
      exact world.performSince_gossips
        (Config.goesOn_of_run run)

theorem startGame_session
    {error : Option ErrorCode}
    (hOk : room.startGame world shuffles =
      .ok (error, after, world')) :
    ∃ session,
      after = { room with gameSession := session } := by
  unfold startGame at hOk
  split at hOk
  · cases hOk
    exact ⟨_, rfl⟩
  · split at hOk
    · cases hOk
      exact ⟨_, rfl⟩
    · rcases Except.bind_eq_ok.mp hOk with
        ⟨session, _, hEnd⟩
      cases hEnd
      exact ⟨_, rfl⟩

theorem tryStartGame_gossips
    {error : Option ErrorCode}
    (hOk : room.tryStartGame world player shuffles =
      .ok (error, after, world')) :
    world.Gossips world' := by
  unfold tryStartGame at hOk
  split at hOk
  · cases hOk
    exact World.Gossips.refl world
  · split at hOk
    · cases hOk
      exact World.Gossips.refl world
    · split at hOk
      · cases hOk
        exact World.Gossips.refl world
      · exact startGame_gossips hOk

/- A session that was called goes on. -/
theorem goesOn_of_called
    {s t called : GameSession}
    {e : Event}
    {pending : Pending}
    (hOk : Config.step ⟨s, .done⟩ e = .ok ⟨called, pending⟩)
    (hFinish : Config.finish ⟨called, pending⟩ shuffles =
      .ok t) :
    s.GoesOn t := by
  rcases Config.finish_run hFinish with ⟨later, run, _⟩
  exact (Config.goesOn_of_ok hOk).trans
    (Config.goesOn_of_run run)

theorem onPlayerAction_gossips
    {action : Action}
    {amount : Option UInt32}
    (hOrder : room.InOrder)
    (hOk : room.onPlayerAction world player action amount
      shuffles = .ok (after, world')) :
    world.Gossips world' := by
  unfold onPlayerAction at hOk
  cases hSession : room.gameSession with
  | none =>
      rw [hSession] at hOk
      cases hOk
      exact World.Gossips.refl world
  | some s =>
      rw [hSession] at hOk
      rcases Except.bind_eq_ok.mp hOk with
        ⟨⟨called, pending⟩, hCall, hRest⟩
      rcases Except.bind_eq_ok.mp hRest with
        ⟨t, hFinish, hKept⟩
      cases hKept
      have hIdle := (hOrder.served s hSession).idle
      have hStep : Config.step ⟨s, .done⟩
          (.applyAction player action amount) =
            .ok ⟨called, pending⟩ := by
        simp [Config.step, hIdle, hCall]
      exact world.performSince_gossips
        (goesOn_of_called hStep hFinish)

/- A player who comes is shown the room with everybody. -/
theorem addPlayer_shown
    (hOk : room.addPlayer world player shuffles =
      .ok (true, after, world')) :
    after.Posts world world' ∧ after.Shown world' := by
  unfold addPlayer at hOk
  split at hOk
  · cases hOk
  · split at hOk
    · cases hOk
    · have hShown := notifyAllAboutJoined_shown
        { room with players := room.players ++ [player] }
        world
      dsimp only at hOk
      split at hOk
      · rcases Except.bind_eq_ok.mp hOk with
          ⟨⟨error, started, w⟩, hStart, hRest⟩
        cases hRest
        have hGossips := startGame_gossips hStart
        rcases startGame_session hStart with ⟨session, rfl⟩
        have hTold : Posts
            { room with
              players := room.players ++ [player]
              gameSession := session }
            world
            (notifyAllAboutJoined
              { room with players := room.players ++ [player] }
              world) :=
          notifyAllAboutJoined_posts rfl
        exact ⟨hTold.trans (posts_of_gossips _ hGossips),
          (hShown.gossips hGossips).congr rfl rfl rfl rfl⟩
      · cases hOk
        exact ⟨notifyAllAboutJoined_posts rfl, hShown⟩

/- Those who stay are shown the room without the leaver. -/
theorem removePlayer_shown
    {removed : Bool}
    (hOrder : room.InOrder)
    (hMem : player ∈ room.players)
    (hOk : room.removePlayer world player shuffles =
      .ok (removed, after, world')) :
    after.Posts world world' ∧ after.Shown world' := by
  unfold removePlayer at hOk
  rw [if_neg (by simpa using hMem)] at hOk
  rcases Except.bind_eq_ok.mp hOk with
    ⟨⟨called, w⟩, hSession, hRest⟩
  have hGossips : world.Gossips w := by
    unfold removeFromSession at hSession
    cases hHas : room.gameSession with
    | none =>
        rw [hHas] at hSession
        cases hSession
        exact World.Gossips.refl world
    | some s =>
        rw [hHas] at hSession
        rcases Except.bind_eq_ok.mp hSession with
          ⟨⟨call, pending⟩, hCall, hFinished⟩
        rcases Except.bind_eq_ok.mp hFinished with
          ⟨t, hFinish, hKept⟩
        cases hKept
        have hIdle := (hOrder.served s hHas).idle
        have hStep : Config.step ⟨s, .done⟩
            (.removePlayer player) = .ok ⟨call, pending⟩ := by
          simp [Config.step, hIdle, hCall]
        exact world.performSince_gossips
          (goesOn_of_called hStep hFinish)
  dsimp only at hRest
  split at hRest
  · cases hRest
    exact ⟨(posts_of_gossips _ hGossips).trans
      (notifyAllAboutJoined_posts rfl),
      notifyAllAboutJoined_shown _ w⟩
  · rename_i hEmpty
    cases hRest
    refine ⟨posts_of_gossips _ hGossips, fun c hc => ?_⟩
    exact absurd (List.ne_nil_of_mem hc) hEmpty

end Room

namespace Lobby

------------------------------------------------------------
-- The Room List
------------------------------------------------------------

/-
  Everybody was shown the room he sits in, and only those
  who are known were ever sent a room list.
-/
structure Posted
    (lobby : Lobby)
    (known : ConnId → Prop) : Prop where
  shown : ∀ ptr room, lobby.Holds ptr room →
    room.Shown lobby.world
  unlisted : ∀ c, ¬ known c →
    Mailbox.picked roomList? c lobby.world.outbox = []
  covered : ∀ connections ∈ lobby.connectionRegistry,
    ∀ c ∈ connections, known c

/- Besides, the last list that was sent is the present one. -/
structure Informed
    (lobby : Lobby)
    (known : ConnId → Prop) : Prop where
  posted : lobby.Posted known
  listed : ∀ connections ∈ lobby.connectionRegistry,
    ∀ c ∈ connections, ∀ roomList,
      Mailbox.last roomList? c lobby.world.outbox =
          some roomList →
        lobby.getRoomList = .ok roomList

variable {lobby left new : Lobby}
variable {known : ConnId → Prop}
variable {player : ConnId}
variable {ptr : RoomPtr}
variable {room after : Room}
variable {draws : Draws}
variable {shuffles : List Shuffle}

/- Everybody who is registered is sent the present list. -/
theorem Posted.broadcast
    (hPosted : lobby.Posted known)
    (hOk : lobby.broadcastRoomList = .ok new) :
    new.Informed known := by
  unfold broadcastRoomList at hOk
  split at hOk
  · rename_i hNone
    cases hOk
    refine ⟨hPosted, fun connections hSome => ?_⟩
    rw [hNone] at hSome
    cases hSome
  · rename_i connections hRegistry
    rcases Except.bind_eq_ok.mp hOk with
      ⟨roomList, hList, hRest⟩
    cases hRest
    have hCovered := hPosted.covered connections hRegistry
    rcases World.told_foldl_send connections
        (.roomList roomList) lobby.world with
      ⟨outbox, hTold⟩
    have hOutbox := World.outbox_foldl_send connections
      (.roomList roomList) lobby.world
    rw [hTold] at hOutbox ⊢
    dsimp only at hOutbox
    subst hOutbox
    refine ⟨⟨?_, ?_, hPosted.covered⟩, ?_⟩
    · intro ptr room hHolds
      refine Room.Shown.of_outbox
        (hPosted.shown ptr room hHolds) ?_ ?_ rfl ?_
      · exact fun _ _ => rfl
      · rfl
      · exact fun c _ =>
          Mailbox.picked_toAll_of_none fun _ => rfl
    · intro c hUnknown
      rw [Mailbox.picked_append, hPosted.unlisted c hUnknown]
      apply Mailbox.picked_toAll_of_notMem
      exact fun hMem => hUnknown (hCovered c hMem)
    · intro others hSome c hMem found hLast
      have hSame : connections = others := by
        rw [hRegistry] at hSome
        exact Option.some.inj hSome
      subst hSame
      have hTold : Mailbox.last roomList? c
          (lobby.world.outbox ++
            Mailbox.toAll connections fun _ =>
              .roomList roomList) = some roomList :=
        Mailbox.last_append_of_some
          (Mailbox.last_toAll hMem rfl)
      have hSame : roomList = found :=
        Option.some.inj (hTold.symm.trans hLast)
      rw [← hSame]
      exact hList

/- Where the other rooms are when one is written back. -/
theorem holds_of_set
    {q : RoomPtr}
    {other : Room}
    (hHeap : new.heap = lobby.heap.set ptr after)
    (hRooms : new.rooms ⊆ lobby.rooms)
    (hHolds : new.Holds q other) :
    (q ≠ ptr → lobby.Holds q other) ∧
      (q = ptr → other = after) := by
  rcases hHolds with ⟨hIn, hAt⟩
  rw [hHeap] at hAt
  constructor
  · intro hNe
    rw [List.getElem?_set_ne (Ne.symm hNe)] at hAt
    exact ⟨hRooms hIn, hAt⟩
  · rintro rfl
    have hLt : q < lobby.heap.length := by
      have hLength := (List.getElem?_eq_some_iff.mp hAt).1
      rwa [List.length_set] at hLength
    rw [List.getElem?_set_self hLt] at hAt
    exact (Option.some.inj hAt).symm

/-
  One room is written back.  Its call has posted it, and
  nobody who sits in it sits in another room.
-/
theorem Posted.rewrite
    (hPosted : lobby.Posted known)
    (hHeap : new.heap = lobby.heap.set ptr after)
    (hRooms : new.rooms ⊆ lobby.rooms)
    (hRegistry : new.connectionRegistry =
      lobby.connectionRegistry)
    (hPosts : after.Posts lobby.world new.world)
    (hShown : after.Shown new.world)
    (hApart : ∀ q other, lobby.Holds q other → q ≠ ptr →
      ∀ c ∈ other.players, c ∉ after.players) :
    new.Posted known := by
  rcases hPosts with ⟨hNames, more, hOutbox, hLists, hJoined⟩
  refine ⟨?_, ?_, ?_⟩
  · intro q other hHolds
    rcases holds_of_set hHeap hRooms hHolds with
      ⟨hOthers, hHere⟩
    by_cases hEq : q = ptr
    · rw [hHere hEq]
      exact hShown
    · have hBefore := hOthers hEq
      apply (hPosted.shown q other hBefore).of_outbox
        (fun c _ => congrFun hNames c)
        (congrFun hNames other.host) hOutbox
      exact fun c hc =>
        hJoined c (hApart q other hBefore hEq c hc)
  · intro c hUnknown
    rw [hOutbox, Mailbox.picked_append,
      hPosted.unlisted c hUnknown, hLists]
    rfl
  · rw [hRegistry]
    exact hPosted.covered

------------------------------------------------------------
-- Leaving
------------------------------------------------------------

/- Those who stay are told of the departure. -/
theorem Informed.leaveRoom
    (hTidy : lobby.Tidy)
    (hInformed : lobby.Informed known)
    (hOk : lobby.leaveRoom player shuffles = .ok new) :
    new.Informed known := by
  unfold Lobby.leaveRoom at hOk
  cases hFind : lobby.playerRooms.find player with
  | none =>
      rw [hFind] at hOk
      cases hOk
      exact hInformed
  | some ptr =>
      rw [hFind] at hOk
      rcases Except.bind_eq_ok.mp hOk with
        ⟨room, hRoom, hRest⟩
      rcases hTidy.holds_of_find hFind hRoom with
        ⟨hHolds, hMem⟩
      rcases Except.bind_eq_ok.mp hRest with
        ⟨⟨removed, after, world⟩, hRemove, hTell⟩
      have hOrder := (hTidy.of_holds hHolds).1
      rcases Room.removePlayer_shown hOrder hMem hRemove with
        ⟨hPosts, hShown⟩
      have hPlayers :
          after.players = room.players.erase player := by
        rcases Room.removePlayer_of_ok hOrder hMem hRemove
          with ⟨_, session, rfl⟩
        rfl
      rcases dropIfEmpty_frame
          { lobby.setRoom ptr after world with
            playerRooms := lobby.playerRooms.erase player }
          ptr after with
        ⟨hHeap, hRooms, hWorld⟩
      have hWorld : world = _ := hWorld.symm
      rw [hWorld] at hPosts hShown
      refine Posted.broadcast ?_ hTell
      refine hInformed.posted.rewrite hHeap hRooms ?_ hPosts
        hShown ?_
      · unfold dropIfEmpty
        split
        · rfl
        · rfl
      · intro q other hOther hNe c hc hHere
        rw [hPlayers] at hHere
        exact hTidy.disjoint hHolds hOther hNe hc
          (List.mem_of_mem_erase hHere)

theorem Informed.leavePresentRoom
    (hTidy : lobby.Tidy)
    (hInformed : lobby.Informed known)
    (hOk : lobby.leavePresentRoom player shuffles =
      .ok new) :
    new.Informed known := by
  unfold Lobby.leavePresentRoom at hOk
  split at hOk
  · exact hInformed.leaveRoom hTidy hOk
  · cases hOk
    exact hInformed

------------------------------------------------------------
-- Entering
------------------------------------------------------------

/- A player without a room has come to sit in one. -/
theorem Posted.seat
    {world : World}
    (hPosted : lobby.Posted known)
    (hAlone : ∀ q other, lobby.Holds q other → q ≠ ptr →
      ∀ c ∈ other.players, c ∉ room.players)
    (hAway : ∀ q other, lobby.Holds q other →
      player ∉ other.players)
    (hFree : lobby.playerRooms.find player = none)
    (hPlayers : after.players = room.players ++ [player])
    (hAdd : room.addPlayer lobby.world player shuffles =
      .ok (true, after, world)) :
    ((lobby.setRoom ptr after world).insertPlayerRoom
      player ptr).Posted known := by
  rcases Room.addPlayer_shown hAdd with ⟨hPosts, hShown⟩
  have hSet : (lobby.setRoom ptr after
      world).insertPlayerRoom player ptr = _ :=
    insertPlayerRoom_of_free hFree
  rw [hSet]
  refine hPosted.rewrite rfl (List.Subset.refl _) rfl hPosts
    hShown ?_
  intro q other hOther hNe c hc hHere
  rw [hPlayers, List.mem_append, List.mem_singleton] at hHere
  rcases hHere with hBefore | hSelf
  · exact hAlone q other hOther hNe c hc hBefore
  · rw [hSelf] at hc
    exact hAway q other hOther hc

/- Whoever has no room sits in none. -/
theorem Tidy.away
    (hTidy : lobby.Tidy)
    (hFree : lobby.playerRooms.find player = none)
    (hHolds : lobby.Holds ptr room) :
    player ∉ room.players := by
  rw [← hTidy.find_iff hHolds, hFree]
  simp

/- A room that nobody sits in yet has been shown to nobody. -/
theorem Posted.makeRoom
    {name : String}
    {maxPlayers : UInt8}
    (hTidy : lobby.Tidy)
    (hPosted : lobby.Posted known) :
    (lobby.makeRoom name maxPlayers player).Posted known ∧
      ∀ q other,
        (lobby.makeRoom name maxPlayers player).Holds q other →
        lobby.Holds q other ∨
          other = lobby.freshRoom name maxPlayers player := by
  have hHeld : ∀ q other,
      (lobby.makeRoom name maxPlayers player).Holds q other →
      lobby.Holds q other ∨
        other = lobby.freshRoom name maxPlayers player := by
    rintro q other ⟨hIn, hAt⟩
    change q ∈ lobby.rooms ++ [lobby.heap.length] at hIn
    change (lobby.heap ++
      [lobby.freshRoom name maxPlayers player])[q]? =
        some other at hAt
    rcases List.mem_append.mp hIn with hOld | hNew
    · rcases hTidy.kept q hOld with ⟨kept, hKept, _⟩
      have hLt := (List.getElem?_eq_some_iff.mp hKept).1
      rw [List.getElem?_append_left hLt] at hAt
      exact Or.inl ⟨hOld, hAt⟩
    · rw [List.mem_singleton.mp hNew,
        List.getElem?_concat_length] at hAt
      exact Or.inr (Option.some.inj hAt).symm
  refine ⟨⟨?_, hPosted.unlisted, hPosted.covered⟩, hHeld⟩
  intro q other hHolds
  rcases hHeld q other hHolds with hOld | rfl
  · exact hPosted.shown q other hOld
  · intro c hc
    simp [freshRoom] at hc

/- The creator is told of the room he has made. -/
theorem Informed.createRoom
    {name : String}
    {maxPlayers : UInt8}
    {made : Option RoomPtr}
    (hTidy : lobby.Tidy)
    (hInformed : lobby.Informed known)
    (hOk : lobby.createRoom name maxPlayers player draws =
      .ok (made, new)) :
    new.Informed known := by
  unfold Lobby.createRoom at hOk
  split at hOk
  · cases hOk
    exact hInformed
  rename_i hMax
  split at hOk
  · cases hOk
    exact hInformed
  have hTwo : 2 ≤ maxPlayers.toNat := Nat.le_of_not_lt hMax
  rcases Except.bind_eq_ok.mp hOk with ⟨left, hLeave, hRest⟩
  have hLeft := hInformed.leavePresentRoom hTidy hLeave
  rcases hTidy.leavePresentRoom hLeave with
    ⟨hLeftTidy, hFree⟩
  rcases Except.bind_eq_ok.mp hRest with
    ⟨room, hRoom, hEnter⟩
  rcases Except.bind_eq_ok.mp hEnter with
    ⟨⟨added, after, world⟩, hAdd, hInsert⟩
  rcases Except.bind_eq_ok.mp hInsert with
    ⟨told, hTell, hEnd⟩
  cases hEnd
  have hFresh := freshRoom_of_ok hRoom
  subst hFresh
  have hEmpty : (left.freshRoom name maxPlayers
      player).players = [] := rfl
  rcases Room.addPlayer_of_ok (freshRoom_inOrder hTwo)
      (by simp [hEmpty]) hAdd with
    ⟨_, _, _, hStarted | hFull⟩ |
      ⟨rfl, _, session, hShape⟩
  · simp [freshRoom] at hStarted
  · rw [hEmpty] at hFull
    exact absurd (Nat.le_trans hTwo hFull) (by simp)
  · rcases hLeft.posted.makeRoom hLeftTidy with
      ⟨hMade, hHeld⟩
    refine Posted.broadcast (hMade.seat ?_ ?_ hFree ?_ hAdd)
      hTell
    · intro q other _ _ c _
      simp [hEmpty]
    · intro q other hHolds
      rcases hHeld q other hHolds with hOld | rfl
      · exact hLeftTidy.away hFree hOld
      · simp [hEmpty]
    · rw [hShape]

theorem Informed.enterRoom
    {roomId : UInt64}
    {error : Option ErrorCode}
    (hTidy : lobby.Tidy)
    (hInformed : lobby.Informed known)
    (hFree : lobby.playerRooms.find player = none)
    (hOk : lobby.enterRoom roomId player shuffles =
      .ok (error, new)) :
    new.Informed known := by
  unfold Lobby.enterRoom at hOk
  rcases Except.bind_eq_ok.mp hOk with ⟨found, hGet, hRest⟩
  cases found with
  | none =>
      cases hRest
      exact hInformed
  | some ptr =>
      rcases Except.bind_eq_ok.mp hRest with
        ⟨room, hRoom, hChecks⟩
      have hHolds : lobby.Holds ptr room :=
        ⟨mem_of_findRoom hGet, require_eq_ok.mp hRoom⟩
      split at hChecks
      · cases hChecks
        exact hInformed
      rename_i hOpen
      split at hChecks
      · cases hChecks
        exact hInformed
      rename_i hRoomLeft
      rcases Except.bind_eq_ok.mp hChecks with
        ⟨⟨added, after, world⟩, hAdd, hEnter⟩
      rcases hTidy.seat_of_ok hHolds hFree hOpen hRoomLeft
          hAdd with
        ⟨rfl, _⟩
      rcases Except.bind_eq_ok.mp hEnter with
        ⟨told, hTell, hEnd⟩
      cases hEnd
      have hPlayers :
          after.players = room.players ++ [player] := by
        rcases Room.addPlayer_of_ok
            (hTidy.of_holds hHolds).1
            (hTidy.away hFree hHolds) hAdd with
          ⟨hFalse, _⟩ | ⟨_, _, session, rfl⟩
        · cases hFalse
        · rfl
      refine Posted.broadcast (hInformed.posted.seat ?_ ?_
        hFree hPlayers hAdd) hTell
      · exact fun q other hOther hNe c hc =>
          hTidy.disjoint hHolds hOther hNe hc
      · exact fun q other hOther =>
          hTidy.away hFree hOther

/- Whoever is let in leaves first, then enters. -/
theorem Informed.joinRoom
    {roomId : UInt64}
    {error : Option ErrorCode}
    (hTidy : lobby.Tidy)
    (hInformed : lobby.Informed known)
    (hOk : lobby.joinRoom roomId player draws =
      .ok (error, new)) :
    new.Informed known := by
  unfold Lobby.joinRoom at hOk
  split at hOk
  · cases hOk
    exact hInformed
  · rcases Except.bind_eq_ok.mp hOk with ⟨same, _, hRest⟩
    cases same with
    | true =>
        cases hRest
        exact hInformed
    | false =>
        rcases Except.bind_eq_ok.mp hRest with
          ⟨left, hLeave, hEnter⟩
        rcases hTidy.leavePresentRoom hLeave with
          ⟨hLeft, hFree⟩
        exact (hInformed.leavePresentRoom hTidy
          hLeave).enterRoom hLeft hFree hEnter

------------------------------------------------------------
-- Playing
------------------------------------------------------------

/- A room whose players, host, id and limit are the same. -/
theorem Posted.play
    {world : World}
    {session : Option GameSession}
    (hTidy : lobby.Tidy)
    (hPosted : lobby.Posted known)
    (hHolds : lobby.Holds ptr room)
    (hAfter : after = { room with gameSession := session })
    (hGossips : lobby.world.Gossips world) :
    (lobby.setRoom ptr after world).Posted known := by
  subst hAfter
  have hShown := (hPosted.shown ptr room hHolds).gossips
    hGossips
  refine hPosted.rewrite rfl (List.Subset.refl _) rfl
    (Room.posts_of_gossips _ hGossips)
    (hShown.congr rfl rfl rfl rfl) ?_
  intro q other hOther hNe c hc
  have hApart : c ∉ room.players :=
    hTidy.disjoint hHolds hOther hNe hc
  exact hApart

/- Rooms that look alike from outside make the same list. -/
theorem getRoomList_congr
    (hRooms : new.rooms = lobby.rooms)
    (hInfo : ∀ ptr ∈ lobby.rooms,
      (new.room ptr).map Room.getRoomInfo =
        (lobby.room ptr).map Room.getRoomInfo) :
    new.getRoomList = lobby.getRoomList := by
  have hList : ∀ l : Lobby, l.getRoomList =
      ((l.rooms.mapM l.room).map
        (List.map Room.getRoomInfo)).map RoomList.mk := by
    intro l
    unfold getRoomList
    cases l.rooms.mapM l.room with
    | error exn => rfl
    | ok rooms => rfl
  rw [hList, hList, hRooms]
  exact congrArg (Except.map RoomList.mk)
    (List.map_mapM_congr hInfo)

/- A room that has a game on has it on after an action. -/
theorem getRoomInfo_of_onPlayerAction
    {world : World}
    {action : Action}
    {amount : Option UInt32}
    (hOk : room.onPlayerAction lobby.world player action
      amount shuffles = .ok (after, world)) :
    after.getRoomInfo = room.getRoomInfo := by
  unfold Room.onPlayerAction at hOk
  cases hSession : room.gameSession with
  | none =>
      rw [hSession] at hOk
      cases hOk
      rfl
  | some s =>
      rw [hSession] at hOk
      rcases Except.bind_eq_ok.mp hOk with
        ⟨⟨called, pending⟩, _, hRest⟩
      rcases Except.bind_eq_ok.mp hRest with ⟨t, _, hKept⟩
      cases hKept
      unfold Room.getRoomInfo Room.isGameStarted
      rw [hSession]
      rfl

/- A request to start that is refused changes nothing. -/
theorem eq_of_tryStartGame
    {code : ErrorCode}
    {world : World}
    (hOk : room.tryStartGame lobby.world player shuffles =
      .ok (some code, after, world)) :
    after = room ∧ world = lobby.world := by
  unfold Room.tryStartGame at hOk
  split at hOk
  · cases hOk
    exact ⟨rfl, rfl⟩
  · split at hOk
    · cases hOk
      exact ⟨rfl, rfl⟩
    · split at hOk
      · cases hOk
        exact ⟨rfl, rfl⟩
      · unfold Room.startGame at hOk
        split at hOk
        · cases hOk
        · split at hOk
          · cases hOk
            exact ⟨rfl, rfl⟩
          · rcases Except.bind_eq_ok.mp hOk with
              ⟨session, _, hRest⟩
            cases hRest

/- A game that starts is announced in the list of rooms. -/
theorem Informed.startGame
    {error : Option ErrorCode}
    (hTidy : lobby.Tidy)
    (hInformed : lobby.Informed known)
    (hOk : lobby.startGame player shuffles =
      .ok (error, new)) :
    new.Informed known := by
  unfold Lobby.startGame findRoomByPlayer at hOk
  cases hFind : lobby.playerRooms.find player with
  | none =>
      rw [hFind] at hOk
      cases hOk
      exact hInformed
  | some ptr =>
      rw [hFind] at hOk
      rcases Except.bind_eq_ok.mp hOk with
        ⟨room, hRoom, hRest⟩
      have hHolds := (hTidy.holds_of_find hFind hRoom).1
      rcases Except.bind_eq_ok.mp hRest with
        ⟨⟨code, after, world⟩, hStart, hEnd⟩
      cases code with
      | some code =>
          cases hEnd
          rcases eq_of_tryStartGame hStart with ⟨rfl, rfl⟩
          have hSame : lobby.heap.set ptr after = lobby.heap := by
            rcases List.getElem?_eq_some_iff.mp hHolds.2 with
              ⟨hLt, hAt⟩
            rw [← hAt]
            exact List.set_getElem_self hLt
          unfold setRoom
          rw [hSame]
          exact hInformed
      | none =>
          rcases Except.bind_eq_ok.mp hEnd with
            ⟨told, hTell, hDone⟩
          cases hDone
          rcases Room.tryStartGame_of_ok
              (hTidy.of_holds hHolds).1 hStart with
            ⟨session, hShape, _⟩
          exact (hInformed.posted.play hTidy hHolds hShape
            (Room.tryStartGame_gossips hStart)).broadcast hTell

/- A move changes nothing that is announced. -/
theorem Informed.playerAction
    {action : Action}
    {amount : Option UInt32}
    (hTidy : lobby.Tidy)
    (hInformed : lobby.Informed known)
    (hOk : lobby.playerAction player action amount shuffles =
      .ok new) :
    new.Informed known := by
  unfold Lobby.playerAction findRoomByPlayer at hOk
  cases hFind : lobby.playerRooms.find player with
  | none =>
      rw [hFind] at hOk
      cases hOk
      exact hInformed
  | some ptr =>
      rw [hFind] at hOk
      rcases Except.bind_eq_ok.mp hOk with
        ⟨room, hRoom, hRest⟩
      have hHolds := (hTidy.holds_of_find hFind hRoom).1
      rcases Except.bind_eq_ok.mp hRest with
        ⟨⟨after, world⟩, hAct, hEnd⟩
      cases hEnd
      have hOrder := (hTidy.of_holds hHolds).1
      rcases Room.onPlayerAction_of_ok hOrder hAct with
        ⟨session, hShape, _⟩
      have hGossips := Room.onPlayerAction_gossips hOrder hAct
      have hPosted := hInformed.posted.play hTidy hHolds
        hShape hGossips
      refine ⟨hPosted, ?_⟩
      intro connections hSome c hMem roomList hLast
      have hList : (lobby.setRoom ptr after world).getRoomList =
          lobby.getRoomList := by
        refine getRoomList_congr rfl fun q hIn => ?_
        unfold Lobby.room setRoom
        dsimp only
        by_cases hEq : q = ptr
        · subst hEq
          have hLt :=
            (List.getElem?_eq_some_iff.mp hHolds.2).1
          rw [List.getElem?_set_self hLt, hHolds.2]
          change Except.ok after.getRoomInfo =
            Except.ok room.getRoomInfo
          rw [getRoomInfo_of_onPlayerAction hAct]
        · rw [List.getElem?_set_ne (Ne.symm hEq)]
      rw [hList]
      apply hInformed.listed connections hSome c hMem
      rcases hGossips with ⟨_, more, hOutbox, hGame⟩
      rw [← hLast]
      change _ = Mailbox.last roomList? c world.outbox
      rw [hOutbox, Mailbox.last_append_of_nil]
      apply Mailbox.picked_eq_nil
      exact fun m hm => roomList?_of_inGame (hGame _ hm)

/- Every call leaves everybody informed. -/
theorem Informed.step
    {call : Call}
    (hTidy : lobby.Tidy)
    (hInformed : lobby.Informed known)
    (hOk : lobby.step call = .ok new) :
    new.Informed known := by
  cases call with
  | createRoom name maxPlayers creator draws =>
      rcases Except.map_eq_ok.mp hOk with
        ⟨⟨made, after⟩, hCreate, rfl⟩
      exact hInformed.createRoom hTidy hCreate
  | joinRoom roomId player draws =>
      rcases Except.map_eq_ok.mp hOk with
        ⟨⟨error, after⟩, hJoin, rfl⟩
      exact hInformed.joinRoom hTidy hJoin
  | leaveRoom player shuffles =>
      exact hInformed.leaveRoom hTidy hOk
  | startGame player shuffles =>
      rcases Except.map_eq_ok.mp hOk with
        ⟨⟨error, after⟩, hStart, rfl⟩
      exact hInformed.startGame hTidy hStart
  | playerAction player action amount shuffles =>
      exact hInformed.playerAction hTidy hOk

end Lobby

end Server

end Poker

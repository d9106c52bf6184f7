import AsciiPoker.Server.Lobby.Moves
import AsciiPoker.Server.Messaging.Registries

/-
  What a request comes to: one call of the lobby by the
  connection that made it, or none, and an answer to it.

  A run of the handshake is so a run of the lobby, between
  whose calls connections log in and are answered.  It keeps
  the lobby tidy, and only those who are online have a room.

  Main declarations:
    * `Call.caller`, `Lobby.Called`, `Lobby.Answered`
    * `Lobby.processClientMessage_of_ok`
    * `Lobby.find_of_step`
    * `Handshake.Run.tidy`, `Handshake.Run.seated_online`
-/

namespace Poker

namespace Server

open Protocol

------------------------------------------------------------
-- Requests
------------------------------------------------------------

/- The connection that makes a call. -/
def Call.caller : Call → ConnId
| .createRoom _ _ creator _ => creator
| .joinRoom _ player _ => player
| .leaveRoom player _ => player
| .startGame player _ => player
| .playerAction player _ _ _ => player

namespace Lobby

variable {lobby mid new after : Lobby}
variable {player c : ConnId}

/- The lobby is left alone, or called once by `player`. -/
def Called
    (lobby : Lobby)
    (player : ConnId)
    (mid : Lobby) : Prop :=
  mid = lobby ∨
    ∃ call, call.caller = player ∧ lobby.step call = .ok mid

/-
  `player` is told nothing, an error, that he left, or the
  list of rooms.
-/
inductive Answered
    (mid : Lobby)
    (player : ConnId) : Lobby → Prop
  | silent : Answered mid player mid
  | refused
      {msg : Error} :
      Answered mid player (mid.send player (.error msg))
  | left
      {msg : LeftRoom} :
      Answered mid player (mid.send player (.leftRoom msg))
  | listed
      {roomList : RoomList}
      (hList : mid.getRoomList = .ok roomList) :
      Answered mid player
        (mid.send player (.roomList roomList))

/- An error, or nothing. -/
theorem answer_answered
    (mid : Lobby)
    (player : ConnId)
    (error : Option ErrorCode) :
    mid.Answered player (mid.answer player error) := by
  cases error with
  | none => exact Answered.silent
  | some code => exact Answered.refused

/- A call that also returns something. -/
theorem called_of_map
    {α : Type}
    (call : Call)
    {x : Except Exn (α × Lobby)}
    {a : α}
    (hCaller : call.caller = player)
    (hCall : lobby.step call = x.map Prod.snd)
    (hOk : x = .ok (a, mid)) :
    lobby.Called player mid := by
  refine Or.inr ⟨call, hCaller, ?_⟩
  rw [hCall, hOk]
  rfl

/- A request calls the lobby once at most and is answered. -/
theorem processClientMessage_of_ok
    {msg : ClientMessage}
    {draws : Draws}
    (hOk : lobby.processClientMessage msg player draws =
      .ok after) :
    ∃ mid, lobby.Called player mid ∧
      mid.Answered player after := by
  cases msg with
  | login msg =>
      cases hOk
      exact ⟨lobby, Or.inl rfl, Answered.silent⟩
  | createRoom msg =>
      simp only [processClientMessage, onCreateRoom] at hOk
      split at hOk
      · cases hOk
        exact ⟨lobby, Or.inl rfl, Answered.refused⟩
      · split at hOk
        · cases hOk
          exact ⟨lobby, Or.inl rfl, Answered.refused⟩
        · refine ⟨after, Or.inr ⟨.createRoom msg.roomName
            msg.maxPlayers player draws, rfl, hOk⟩,
            Answered.silent⟩
  | joinRoom msg =>
      rcases Except.bind_eq_ok.mp hOk with
        ⟨⟨error, joined⟩, hJoin, hEnd⟩
      cases hEnd
      exact ⟨joined, called_of_map
        (.joinRoom msg.roomId player draws) rfl rfl
        hJoin, joined.answer_answered player error⟩
  | leaveRoom =>
      rcases Except.bind_eq_ok.mp hOk with
        ⟨roomId, _, hRest⟩
      rcases Except.bind_eq_ok.mp hRest with
        ⟨left, hLeave, hEnd⟩
      cases hEnd
      exact ⟨left, Or.inr ⟨.leaveRoom player draws.leaving,
        rfl, hLeave⟩, Answered.left⟩
  | listRooms =>
      rcases Except.bind_eq_ok.mp hOk with
        ⟨roomList, hList, hEnd⟩
      cases hEnd
      exact ⟨lobby, Or.inl rfl, Answered.listed hList⟩
  | startGame =>
      rcases Except.bind_eq_ok.mp hOk with
        ⟨⟨error, started⟩, hStart, hEnd⟩
      cases hEnd
      exact ⟨started, called_of_map
        (.startGame player draws.starting) rfl rfl
        hStart, started.answer_answered player error⟩
  | playerAction msg =>
      simp only [processClientMessage, onPlayerAction] at hOk
      split at hOk
      · cases hOk
        exact ⟨lobby, Or.inl rfl, Answered.refused⟩
      · exact ⟨after, Or.inr ⟨.playerAction player msg.action
          msg.amount draws.starting, rfl, hOk⟩,
          Answered.silent⟩

/- An answer is a message and nothing else. -/
theorem Answered.told
    (hAnswered : mid.Answered player after) :
    mid.Told after := by
  cases hAnswered with
  | silent => exact Told.refl mid
  | refused => exact ⟨_, ⟨_, rfl⟩, rfl⟩
  | left => exact ⟨_, ⟨_, rfl⟩, rfl⟩
  | listed hList => exact ⟨_, ⟨_, rfl⟩, rfl⟩

------------------------------------------------------------
-- Who Has a Room
------------------------------------------------------------

/- Messages seat nobody. -/
theorem Told.playerRooms_eq
    (hTold : lobby.Told new) :
    new.playerRooms = lobby.playerRooms := by
  rcases hTold with ⟨world, _, rfl⟩
  rfl

/- Only the room of whoever leaves is forgotten. -/
theorem Departs.find_of_ne
    {shuffles : List Shuffle}
    (hDeparts : lobby.Departs player shuffles new)
    (hNe : c ≠ player) :
    new.playerRooms.find c = lobby.playerRooms.find c := by
  cases hDeparts with
  | outside hFree => rfl
  | @leaving ptr room after removed world left hHolds hMem
      hRemove hTold =>
      rw [hTold.playerRooms_eq]
      have hErased : (lobby.playerRooms.erase player).find c =
          lobby.playerRooms.find c := by
        rw [KeyMap.find_erase, if_neg hNe]
      unfold dropIfEmpty
      split
      · exact hErased
      · exact hErased

/- Only whoever arrives is put down in a room. -/
theorem Arrives.find_of_ne
    {shuffles : List Shuffle}
    {ptr : RoomPtr}
    (hArrives : lobby.Arrives player shuffles ptr new)
    (hNe : c ≠ player) :
    new.playerRooms.find c = lobby.playerRooms.find c := by
  cases hArrives with
  | @seated room after world new hHolds hOrder hNew hFree hAdd
      hTold =>
      have hSet : (lobby.setRoom ptr after
          world).insertPlayerRoom player ptr = _ :=
        insertPlayerRoom_of_free hFree
      rw [hTold.playerRooms_eq, hSet]
      dsimp only [setRoom]
      rw [KeyMap.find_set, if_neg hNe]

/- Nor does what is played. -/
theorem Plays.playerRooms_eq
    (hPlays : lobby.Plays new) :
    new.playerRooms = lobby.playerRooms := by
  cases hPlays with
  | started hHolds hStart hTold => exact hTold.playerRooms_eq
  | acted hHolds hAct => rfl

/- A call changes the room of nobody but its caller. -/
theorem find_of_step
    {call : Call}
    (hTidy : lobby.Tidy)
    (hOk : lobby.step call = .ok new)
    (hNe : c ≠ call.caller) :
    new.playerRooms.find c = lobby.playerRooms.find c := by
  cases call with
  | createRoom name maxPlayers creator draws =>
      rcases Except.map_eq_ok.mp hOk with
        ⟨⟨made, after⟩, hCreate, rfl⟩
      rcases createRoom_moves hTidy hCreate with
        ⟨_, hSame⟩ | ⟨_, left, _, hDeparts, hArrives⟩
      · rw [hSame]
      · exact (hArrives.find_of_ne hNe).trans
          (hDeparts.find_of_ne hNe)
  | joinRoom roomId player draws =>
      rcases Except.map_eq_ok.mp hOk with
        ⟨⟨error, after⟩, hJoin, rfl⟩
      rcases joinRoom_moves hTidy hJoin with
        hSame | ⟨_, left, hDeparts, ⟨_, hSame⟩ |
          ⟨_, ptr, hArrives⟩⟩
      · rw [hSame]
      · rw [hSame]
        exact hDeparts.find_of_ne hNe
      · exact (hArrives.find_of_ne hNe).trans
          (hDeparts.find_of_ne hNe)
  | leaveRoom player shuffles =>
      exact (departs_of_leaveRoom hTidy hOk).find_of_ne hNe
  | startGame player shuffles =>
      rcases Except.map_eq_ok.mp hOk with
        ⟨⟨error, after⟩, hStart, rfl⟩
      rcases startGame_plays hTidy hStart with hSame | hPlays
      · rw [hSame]
      · rw [hPlays.playerRooms_eq]
  | playerAction player action amount shuffles =>
      rcases playerAction_plays hTidy hOk with hSame | hPlays
      · rw [hSame]
      · rw [hPlays.playerRooms_eq]

/- One call keeps the lobby tidy. -/
theorem Called.tidy
    (hTidy : lobby.Tidy)
    (hCalled : lobby.Called player mid) :
    mid.Tidy := by
  rcases hCalled with rfl | ⟨call, _, hOk⟩
  · exact hTidy
  · exact hTidy.step hOk

/- Nobody else is moved. -/
theorem Called.find_of_ne
    (hTidy : lobby.Tidy)
    (hCalled : lobby.Called player mid)
    (hNe : c ≠ player) :
    mid.playerRooms.find c = lobby.playerRooms.find c := by
  rcases hCalled with rfl | ⟨call, rfl, hOk⟩
  · rfl
  · exact find_of_step hTidy hOk hNe

/- Messages change no room. -/
theorem Told.tidy
    (hTidy : lobby.Tidy)
    (hTold : lobby.Told new) :
    new.Tidy := by
  rcases hTold with ⟨world, _, rfl⟩
  exact hTidy.of_world world

end Lobby

------------------------------------------------------------
-- Runs of the Handshake
------------------------------------------------------------

namespace Handshake

variable {parse : Parser}
variable {pbkdf2 : Pbkdf2}
variable {users : UserRepository}
variable {h after : Handshake}
variable {c : ConnId}
variable {e : Event}

/- Nothing of the lobby but its world and its registry. -/
structure SameRooms
    (h after : Handshake) : Prop where
  heap : after.lobby.heap = h.lobby.heap
  rooms : after.lobby.rooms = h.lobby.rooms
  playerRooms : after.lobby.playerRooms = h.lobby.playerRooms
  nextRoomId : after.lobby.nextRoomId = h.lobby.nextRoomId

/- A lobby that is tidy, whose players are online. -/
structure Guarded
    (h : Handshake) : Prop where
  tidy : h.lobby.Tidy
  online : ∀ c ptr,
    h.lobby.playerRooms.find c = some ptr → h.Online c

/- There is nobody yet. -/
theorem opening_guarded
    (users : UserRepository) :
    (opening users).Guarded where
  tidy := Lobby.opening_tidy _ _
  online := by simp [opening, Lobby.opening]

/- The rooms are all that counts. -/
theorem SameRooms.tidy
    (hTidy : h.lobby.Tidy)
    (hSame : h.SameRooms after) :
    after.lobby.Tidy := by
  rcases hSame with ⟨hHeap, hRooms, hPlayers, hNext⟩
  refine ⟨?_, ?_, ?_, ?_, ?_⟩
  · rw [hRooms]
    exact hTidy.rooms_nodup
  · rw [hRooms, hHeap]
    exact hTidy.kept
  · unfold Lobby.Holds
    rw [hPlayers, hRooms, hHeap]
    exact hTidy.placed
  · rw [hHeap]
    exact hTidy.numbered
  · rw [hNext, hHeap]
    exact hTidy.next

/- A login touches no room, whatever comes of it. -/
theorem finishAuthentication_sameRooms
    (h : Handshake)
    (users : UserRepository)
    (username : String)
    (c : ConnId)
    (chips : UInt32)
    (isNewAccount : Bool) :
    h.SameRooms ((h.setUsers users).finishAuthentication
      username c chips isNewAccount) := by
  by_cases hTaken : username ∈ (h.setUsers users).nameRegistry
  · rw [finishAuthentication_of_taken hTaken]
    exact ⟨rfl, rfl, rfl, rfl⟩
  · rw [finishAuthentication_of_free hTaken]
    exact ⟨rfl, rfl, rfl, rfl⟩

/- Whoever was online stays so when somebody comes. -/
theorem online_of_finishAuthentication
    {username : String}
    {chips : UInt32}
    {isNewAccount : Bool}
    {d : ConnId}
    (hOnline : h.Online d) :
    (h.finishAuthentication username c chips
      isNewAccount).Online d := by
  by_cases hTaken : username ∈ h.nameRegistry
  · rw [finishAuthentication_of_taken hTaken]
    exact hOnline
  · rw [finishAuthentication_of_free hTaken]
    exact ⟨Finset.mem_insert_of_mem hOnline.1, hOnline.2⟩

/- A disconnect leaves the room and touches no other. -/
theorem leaveRoom_of_onDisconnect
    {shuffles : List Shuffle}
    (hOk : h.onDisconnect c shuffles = .ok after) :
    ∃ mid, h.SameRooms mid ∧
      mid.lobby.world = h.lobby.world ∧
      mid.lobby.leaveRoom c shuffles = .ok after.lobby := by
  unfold onDisconnect at hOk
  rcases Except.bind_eq_ok.mp hOk with ⟨lobby, hLeave, hEnd⟩
  cases hEnd
  refine ⟨_, ?_, ?_, hLeave⟩
  · dsimp only
    split
    · exact ⟨rfl, rfl, rfl, rfl⟩
    · exact ⟨rfl, rfl, rfl, rfl⟩
  · dsimp only
    split
    · rfl
    · rfl

/- Every event keeps the lobby tidy and its players online. -/
theorem Guarded.step
    (hGuarded : h.Guarded)
    (hOk : h.step parse pbkdf2 e = .ok after) :
    after.Guarded := by
  rcases hGuarded with ⟨hTidy, hAll⟩
  cases e with
  | message c body draws salt =>
      rcases processed_of_step hOk with ⟨hOpen, hProcessed⟩
      cases hProcessed with
      | refused hNobody => exact ⟨hTidy.of_world _, hAll⟩
      | requested hThere hProcess =>
          rcases Lobby.processClientMessage_of_ok hProcess
            with ⟨mid, hCalled, hAnswered⟩
          have hTold := hAnswered.told
          refine ⟨hTold.tidy (hCalled.tidy hTidy), ?_⟩
          intro d ptr hFind
          by_cases hSelf : d = c
          · rw [hSelf]
            exact ⟨hThere, hOpen⟩
          · rw [hTold.playerRooms_eq,
              hCalled.find_of_ne hTidy hSelf] at hFind
            exact hAll d ptr hFind
      | opened hNew hLogin hUsers hName hPassword hOpens
          hFound =>
          have hSame := h.finishAuthentication_sameRooms
          refine ⟨(hSame _ _ _ _ _).tidy hTidy, ?_⟩
          intro d ptr hFind
          rw [(hSame _ _ _ _ _).playerRooms] at hFind
          exact online_of_finishAuthentication
            (hAll d ptr hFind)
  | disconnect c shuffles =>
      rcases onDisconnect_of_step hOk with ⟨hOpen, hGone⟩
      rcases leaveRoom_of_onDisconnect hGone with
        ⟨mid, hSame, _, hLeave⟩
      have hMid := hSame.tidy hTidy
      rcases hMid.leaveRoom hLeave with ⟨hAfter, hFree⟩
      refine ⟨hAfter, fun d ptr hFind => ?_⟩
      have hNe : d ≠ c := by
        intro hEq
        rw [hEq, hFree] at hFind
        cases hFind
      have hDeparts := Lobby.departs_of_leaveRoom hMid hLeave
      rw [hDeparts.find_of_ne hNe, hSame.playerRooms] at hFind
      rcases onDisconnect_of_ok hGone with
        ⟨_, hAuthenticated, hClosed, _⟩
      have hOnline := hAll d ptr hFind
      refine ⟨?_, ?_⟩
      · rw [hAuthenticated]
        exact hOnline.1
      · rw [hClosed, Finset.mem_insert, not_or]
        exact ⟨hNe, hOnline.2⟩

/- One step after the other. -/
theorem Run.guarded
    {trace : List (Handshake × Event)}
    (run : Run parse pbkdf2 users trace h) :
    h.Guarded :=
  Transition.Run.invariant_of_step
    (fun _ _ _ hGuarded hOk => hGuarded.step hOk)
    run (opening_guarded users)

end Handshake

end Server

end Poker

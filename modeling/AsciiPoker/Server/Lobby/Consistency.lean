import AsciiPoker.Server.Lobby.Representation

/-
  What a tidy lobby looks like from outside: its rooms, its
  players and their games.

  Ids are counted in 64 bits and `next_room_id_` comes round
  to 0 with the room of number 2 ^ 64 - 1.

  Main declarations:
    * `Lobby.Consistent`, `Lobby.IdsInOrder`
    * `Lobby.Run.consistent`
    * `Lobby.lastId_not_below`
-/

namespace Poker

namespace Server

open Protocol

namespace Lobby

------------------------------------------------------------
-- Consistent Lobbies
------------------------------------------------------------

variable {lobby : Lobby}

/-
  No room is listed twice or empty; a player is put down in
  a room when he sits in it, which he does in one room and
  once; a room keeps to its limit and has a host who sits in
  it; and a game is played by the room's players, of whom
  there are two at least.
-/
structure Consistent
    (lobby : Lobby) : Prop where
  listed : lobby.rooms.Nodup ∧
    ∀ ptr ∈ lobby.rooms, ∃ room, lobby.Holds ptr room
  occupied : ∀ ptr room, lobby.Holds ptr room →
    room.players ≠ []
  placed : ∀ c ptr, lobby.playerRooms.find c = some ptr ↔
    ∃ room, lobby.Holds ptr room ∧ c ∈ room.players
  oneRoom : ∀ c p q room other,
    lobby.Holds p room → lobby.Holds q other →
      c ∈ room.players → c ∈ other.players → p = q
  oneSeat : ∀ ptr room, lobby.Holds ptr room →
    room.players.Nodup
  bounded : ∀ ptr room, lobby.Holds ptr room →
    room.players.length ≤ room.maxPlayers.toNat
  hosted : ∀ ptr room, lobby.Holds ptr room →
    room.host ∈ room.players
  played : ∀ ptr room, lobby.Holds ptr room →
    ∀ session ∈ room.gameSession,
      session.players = room.players ∧
        2 ≤ session.players.length

/- The ids of the rooms are different and below the next. -/
structure IdsInOrder
    (lobby : Lobby) : Prop where
  distinct : ∀ p q room other,
    lobby.Holds p room → lobby.Holds q other →
      room.id = other.id → p = q
  below : ∀ ptr room, lobby.Holds ptr room →
    room.id < lobby.nextRoomId

theorem Tidy.consistent_of_tidy
    (hTidy : lobby.Tidy) :
    lobby.Consistent where
  listed := by
    refine ⟨hTidy.rooms_nodup, fun ptr hPtr => ?_⟩
    rcases hTidy.kept ptr hPtr with ⟨room, hAt, _⟩
    exact ⟨room, hPtr, hAt⟩
  occupied := fun _ _ hHolds =>
    List.ne_nil_of_mem (hTidy.of_holds hHolds).2
  placed := hTidy.placed
  oneRoom := by
    intro c p q room other hRoom hOther hc hAlso
    have hFirst := (hTidy.find_iff hRoom c).mpr hc
    have hSecond := (hTidy.find_iff hOther c).mpr hAlso
    rw [hFirst] at hSecond
    exact Option.some.inj hSecond
  oneSeat := fun _ _ hHolds => (hTidy.of_holds hHolds).1.nodup
  bounded := fun _ _ hHolds =>
    (hTidy.of_holds hHolds).1.bounded
  hosted := fun _ _ hHolds => (hTidy.of_holds hHolds).2
  played := by
    intro ptr room hHolds session hSession
    have hServes :=
      (hTidy.of_holds hHolds).1.served session hSession
    refine ⟨hServes.players_eq, ?_⟩
    rw [hServes.players_eq]
    exact hServes.enough

/- The number of an id that was given out. -/
theorem Tidy.toNat_id
    {ptr : Nat}
    {room : Room}
    (hTidy : lobby.Tidy)
    (hBound : lobby.heap.length + 1 < 2 ^ 64)
    (hHolds : lobby.Holds ptr room) :
    room.id.toNat = ptr + 1 ∧ ptr < lobby.heap.length := by
  have hLt : ptr < lobby.heap.length :=
    (List.getElem?_eq_some_iff.mp hHolds.2).1
  refine ⟨?_, hLt⟩
  rw [hTidy.numbered ptr room hHolds.2]
  exact UInt64.toNat_ofNat_of_lt' (by
    change ptr + 1 < 2 ^ 64
    omega)

theorem Tidy.idsInOrder
    (hTidy : lobby.Tidy)
    (hBound : lobby.heap.length + 1 < 2 ^ 64) :
    lobby.IdsInOrder where
  distinct := by
    intro p q room other hRoom hOther hSame
    have hFirst := (hTidy.toNat_id hBound hRoom).1
    have hSecond := (hTidy.toNat_id hBound hOther).1
    rw [hSame, hSecond] at hFirst
    exact (Nat.succ.inj hFirst).symm
  below := by
    intro ptr room hHolds
    rcases hTidy.toNat_id hBound hHolds with ⟨hId, hLt⟩
    have hNext : lobby.nextRoomId.toNat =
        lobby.heap.length + 1 := by
      rw [hTidy.next]
      exact UInt64.toNat_ofNat_of_lt' hBound
    rw [UInt64.lt_iff_toNat_lt, hId, hNext]
    omega

------------------------------------------------------------
-- Runs
------------------------------------------------------------

/-
  Every lobby that is reached is consistent, and its ids are
  in order as long as fewer than 2 ^ 64 - 1 rooms were made.
-/
theorem Run.consistent
    {world : World}
    {registry : Option (List ConnId)}
    {trace : List (Lobby × Call)}
    (run : Run world registry trace lobby) :
    lobby.Consistent ∧
      (lobby.heap.length + 1 < 2 ^ 64 →
        lobby.IdsInOrder) :=
  ⟨run.tidy.consistent_of_tidy, run.tidy.idsInOrder⟩

/- Nobody is stored and everybody has a name of his own. -/
def plainWorld : World where
  names := fun c => toString c
  repository := none

/- Two players make a room and fill it, which starts a game. -/
def fullTable : List Call :=
  [.createRoom "Table" 2 0 {},
    .joinRoom 1 1 { starting := [.unshuffled, .unshuffled] }]

theorem fullTable_consistent :
    ∃ trace lobby,
      Run plainWorld (some [0, 1]) trace lobby ∧
        (∃ room, lobby.Holds 0 room ∧
          room.players = [0, 1] ∧
          room.gameSession.isSome) ∧
        lobby.Consistent ∧ lobby.IdsInOrder := by
  have hPasses : Transition.passes step
      (opening plainWorld (some [0, 1])) fullTable
      (fun _ lobby =>
        decide (0 ∈ lobby.rooms ∧ lobby.heap.length = 1) &&
        match lobby.heap[0]? with
        | none => false
        | some room => decide (room.players = [0, 1] ∧
            room.gameSession.isSome)) = true := by
    decide +kernel
  rcases Transition.exists_run_of_passes hPasses with
    ⟨trace, lobby, run, hTest⟩
  rw [Bool.and_eq_true, decide_eq_true_eq] at hTest
  rcases hTest with ⟨⟨hListed, hLength⟩, hRoom⟩
  rcases Run.consistent run with ⟨hConsistent, hIds⟩
  refine ⟨trace, lobby, run, ?_, hConsistent,
    hIds (by rw [hLength]; decide)⟩
  cases hAt : lobby.heap[0]? with
  | none => simp [hAt] at hRoom
  | some room =>
      simp only [hAt, decide_eq_true_eq] at hRoom
      exact ⟨room, ⟨hListed, hAt⟩, hRoom⟩

------------------------------------------------------------
-- The Last Id
------------------------------------------------------------

/- Connection 0 sits alone in the last room that was made. -/
structure Alone
    (lobby : Lobby)
    (last : RoomPtr) : Prop where
  silent : lobby.connectionRegistry = none
  unstored : lobby.world.repository = none
  made : lobby.heap.length = last + 1
  only : lobby.rooms = [last]
  here : lobby.playerRooms.find 0 = some last
  room : ∃ room, lobby.heap[last]? = some room ∧
    room.players = [0] ∧ room.gameSession = none

/- Connection 0 makes a room of two and moves into it. -/
def remake : Call :=
  .createRoom "Table" 2 0 {}

/- A lobby without rooms, registry and repository. -/
structure Deserted
    (lobby : Lobby)
    (made : Nat) : Prop where
  silent : lobby.connectionRegistry = none
  unstored : lobby.world.repository = none
  made : lobby.heap.length = made
  empty : lobby.rooms = []
  free : lobby.playerRooms.find 0 = none

/- The room of connection 0. -/
def soloRoom
    (id : UInt64) : Room where
  id := id
  name := "Table"
  maxPlayers := 2
  host := 0
  players := [0]

/- Connection 0 makes a room once it has left the last one. -/
theorem step_remake
    {left : Lobby}
    {made : Nat}
    (hUnstored : lobby.world.repository = none)
    (hLeave : lobby.leavePresentRoom 0 [] = .ok left)
    (hDeserted : left.Deserted made) :
    ∃ new, lobby.step remake = .ok new ∧ new.Alone made := by
  have hCheck : lobby.checkPlayerBankroll 0 = none := by
    simp [checkPlayerBankroll, hUnstored]
  have hStep : lobby.step remake =
      .ok
        { world := (soloRoom
            left.nextRoomId).notifyAllAboutJoined left.world
          connectionRegistry := none
          heap := left.heap ++ [soloRoom left.nextRoomId]
          rooms := [made]
          playerRooms := left.playerRooms.set 0 made
          nextRoomId := left.nextRoomId + 1 } := by
    simp [step, remake, createRoom, hCheck, hLeave,
      Except.map, bind, Except.bind, makeRoom, Lobby.room,
      require, Room.addPlayer, broadcastRoomList,
      insertPlayerRoom, hDeserted.silent, hDeserted.free,
      hDeserted.empty, hDeserted.made, setRoom, soloRoom]
  refine ⟨_, hStep, rfl, ?_, ?_, rfl, ?_, ?_⟩
  · exact hDeserted.unstored
  · simp [hDeserted.made]
  · simp [KeyMap.find_set]
  · refine ⟨soloRoom left.nextRoomId, ?_, rfl, rfl⟩
    dsimp only
    rw [← hDeserted.made]
    exact List.getElem?_concat_length

/- Connection 0 leaves the last room, which goes with it. -/
theorem Alone.leavePresentRoom
    {last : RoomPtr}
    (hAlone : lobby.Alone last) :
    ∃ left, lobby.leavePresentRoom 0 [] = .ok left ∧
      left.Deserted (last + 1) := by
  rcases hAlone.room with ⟨room, hAt, hPlayers, hIdle⟩
  have hLeave : lobby.leavePresentRoom 0 [] =
      .ok
        { lobby with
          heap := lobby.heap.set last
            { room with
              players := []
              host := Room.hostAfter
                { room with players := [] } 0 }
          rooms := []
          playerRooms := lobby.playerRooms.erase 0 } := by
    simp [Lobby.leavePresentRoom, leaveRoom, hAlone.here,
      Lobby.room, hAt, require, bind, Except.bind,
      Room.removePlayer, hPlayers, Room.removeFromSession,
      hIdle, dropIfEmpty, Room.playerCount, setRoom,
      hAlone.only, broadcastRoomList, hAlone.silent]
  refine ⟨_, hLeave, hAlone.silent, hAlone.unstored, ?_, rfl,
    ?_⟩
  · simp [hAlone.made]
  · simp [KeyMap.find_erase]

/- After any number of rooms, one more alone. -/
theorem exists_run_alone
    (last : Nat) :
    ∃ trace lobby,
      Run plainWorld none trace lobby ∧
        lobby.Alone last := by
  induction last with
  | zero =>
      have hFresh : (opening plainWorld none).Deserted 0 :=
        ⟨rfl, rfl, rfl, rfl, rfl⟩
      have hOutside : (opening plainWorld none).leavePresentRoom
          0 [] = .ok (opening plainWorld none) := by
        simp [Lobby.leavePresentRoom, opening]
      rcases step_remake rfl hOutside hFresh with
        ⟨new, hStep, hAlone⟩
      exact ⟨_, new, Transition.Run.nil.snoc hStep, hAlone⟩
  | succ last ih =>
      rcases ih with ⟨trace, lobby, run, hAlone⟩
      rcases hAlone.leavePresentRoom with
        ⟨left, hLeave, hDeserted⟩
      rcases step_remake hAlone.unstored hLeave hDeserted with
        ⟨new, hStep, hNew⟩
      exact ⟨_, new, run.snoc hStep, hNew⟩

/-
  The room of number 2 ^ 64 - 1 has the greatest id there
  is, and the next id is 0.
-/
theorem lastId_not_below :
    ¬ ∀ world registry trace lobby,
      Run world registry trace lobby →
        lobby.Consistent ∧ lobby.IdsInOrder := by
  intro hAll
  rcases exists_run_alone (2 ^ 64 - 2) with
    ⟨trace, lobby, run, hAlone⟩
  have hBelow := (hAll _ _ _ _ run).2.below
  rcases hAlone.room with ⟨room, hAt, _⟩
  have hHolds : lobby.Holds (2 ^ 64 - 2) room := by
    refine ⟨?_, hAt⟩
    rw [hAlone.only]
    exact List.mem_singleton_self _
  have hLt := hBelow _ _ hHolds
  have hNext : lobby.nextRoomId = 0 := by
    rw [run.tidy.next, hAlone.made]
    rfl
  rw [hNext] at hLt
  exact absurd hLt (UInt64.not_lt_zero)

end Lobby

end Server

end Poker

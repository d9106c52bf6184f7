import AsciiPoker.Library.Failure
import AsciiPoker.Server.Lobby.Lobby
import AsciiPoker.Server.Lobby.Seating

/-
  The rooms of a lobby, the rooms that players are put down
  in, and the players of the rooms say the same.

  `Lobby.Tidy` is kept by every call.  It knows a room by
  its pointer, so it does not mind that ids are counted in
  64 bits; while fewer than 2 ^ 64 - 1 rooms were made, ids
  tell rooms apart as well.

  Main declarations:
    * `Lobby.Holds`, `Lobby.Tidy`
    * `Lobby.Tidy.replace`, `Lobby.Tidy.extend`
    * `Lobby.Tidy.step`
    * `Lobby.Run.represented`
-/

namespace Poker

namespace Server

open Protocol

namespace Lobby

------------------------------------------------------------
-- The Invariant
------------------------------------------------------------

/- `ptr` is one of the lobby's rooms and points to `room`. -/
def Holds
    (lobby : Lobby)
    (ptr : RoomPtr)
    (room : Room) : Prop :=
  ptr ∈ lobby.rooms ∧ lobby.heap[ptr]? = some room

structure Tidy
    (lobby : Lobby) : Prop where
  rooms_nodup : lobby.rooms.Nodup
  kept : ∀ ptr ∈ lobby.rooms, ∃ room,
    lobby.heap[ptr]? = some room ∧
      room.InOrder ∧ room.host ∈ room.players
  placed : ∀ c ptr, lobby.playerRooms.find c = some ptr ↔
    ∃ room, lobby.Holds ptr room ∧ c ∈ room.players
  numbered : ∀ ptr room, lobby.heap[ptr]? = some room →
    room.id = UInt64.ofNat (ptr + 1)
  next : lobby.nextRoomId =
    UInt64.ofNat (lobby.heap.length + 1)

variable {lobby new : Lobby}
variable {ptr : RoomPtr}
variable {room after : Room}
variable {player : ConnId}
variable {shuffles : List Shuffle}

theorem opening_tidy
    (world : World)
    (registry : Option (List ConnId)) :
    (opening world registry).Tidy where
  rooms_nodup := List.nodup_nil
  kept := by simp [opening]
  placed := by simp [opening, Holds]
  numbered := by simp [opening]
  next := rfl

/- What was sent or stored does not matter. -/
theorem Tidy.of_world
    (hTidy : lobby.Tidy)
    (world : World) :
    { lobby with world := world }.Tidy :=
  ⟨hTidy.rooms_nodup, hTidy.kept, hTidy.placed,
    hTidy.numbered, hTidy.next⟩

/- A room that the lobby holds is in order. -/
theorem Tidy.of_holds
    (hTidy : lobby.Tidy)
    (hHolds : lobby.Holds ptr room) :
    room.InOrder ∧ room.host ∈ room.players := by
  rcases hTidy.kept ptr hHolds.1 with ⟨other, hAt, hKept⟩
  rw [hHolds.2] at hAt
  cases hAt
  exact hKept

/- The room a player is put down in. -/
theorem Tidy.holds_of_find
    (hTidy : lobby.Tidy)
    (hFind : lobby.playerRooms.find player = some ptr)
    (hRoom : lobby.room ptr = .ok room) :
    lobby.Holds ptr room ∧ player ∈ room.players := by
  rcases (hTidy.placed player ptr).mp hFind with
    ⟨other, hHolds, hMem⟩
  unfold Lobby.room at hRoom
  rw [require_eq_ok, hHolds.2] at hRoom
  cases hRoom
  exact ⟨hHolds, hMem⟩

/- Whoever is put down in a held room sits in it. -/
theorem Tidy.find_iff
    (hTidy : lobby.Tidy)
    (hHolds : lobby.Holds ptr room)
    (c : ConnId) :
    lobby.playerRooms.find c = some ptr ↔
      c ∈ room.players := by
  rw [hTidy.placed]
  constructor
  · rintro ⟨other, hOther, hc⟩
    have hSame := hOther.2
    rw [hHolds.2] at hSame
    cases hSame
    exact hc
  · exact fun hc => ⟨room, hHolds, hc⟩

/- Whoever sits in a room sits in no other. -/
theorem Tidy.disjoint
    {q : RoomPtr}
    {other : Room}
    {c : ConnId}
    (hTidy : lobby.Tidy)
    (hHolds : lobby.Holds ptr room)
    (hOther : lobby.Holds q other)
    (hNe : q ≠ ptr)
    (hMem : c ∈ other.players) :
    c ∉ room.players := by
  intro hHere
  have hFirst := (hTidy.find_iff hHolds c).mpr hHere
  have hSecond := (hTidy.find_iff hOther c).mpr hMem
  rw [hFirst] at hSecond
  exact hNe (Option.some.inj hSecond).symm

/- Somebody without a room is put down in the new one. -/
theorem insertPlayerRoom_of_free
    {moved : Lobby}
    (hFree : moved.playerRooms.find player = none) :
    moved.insertPlayerRoom player ptr =
      { moved with
        playerRooms := moved.playerRooms.set player ptr } := by
  unfold insertPlayerRoom
  simp [hFree]

------------------------------------------------------------
-- Changing One Room
------------------------------------------------------------

/-
  One room is written back, and dropped if it has lost its
  last player; the places of its players are kept up, and
  everybody else's is as before.
-/
theorem Tidy.replace
    (hTidy : lobby.Tidy)
    (hHolds : lobby.Holds ptr room)
    (hId : after.id = room.id)
    (hOrder : after.InOrder)
    (hHost : after.players ≠ [] →
      after.host ∈ after.players)
    (hHeap : new.heap = lobby.heap.set ptr after)
    (hNodup : new.rooms.Nodup)
    (hRooms : ∀ q, q ∈ new.rooms ↔
      q ∈ lobby.rooms ∧ (q = ptr → after.players ≠ []))
    (hHere : ∀ c, new.playerRooms.find c = some ptr ↔
      c ∈ after.players)
    (hElsewhere : ∀ c q, q ≠ ptr →
      (new.playerRooms.find c = some q ↔
        lobby.playerRooms.find c = some q))
    (hNext : new.nextRoomId = lobby.nextRoomId) :
    new.Tidy := by
  have hLt : ptr < lobby.heap.length :=
    (List.getElem?_eq_some_iff.mp hHolds.2).1
  have hAtSelf : new.heap[ptr]? = some after := by
    rw [hHeap]
    exact List.getElem?_set_self hLt
  have hAtOther : ∀ q, q ≠ ptr →
      new.heap[q]? = lobby.heap[q]? := by
    intro q hNe
    rw [hHeap]
    exact List.getElem?_set_ne (Ne.symm hNe)
  have hIn : ptr ∈ new.rooms ↔ after.players ≠ [] := by
    rw [hRooms]
    exact ⟨fun h => h.2 rfl,
      fun h => ⟨hHolds.1, fun _ => h⟩⟩
  refine ⟨hNodup, ?_, ?_, ?_, ?_⟩
  · intro q hq
    by_cases hEq : q = ptr
    · subst hEq
      exact ⟨after, hAtSelf, hOrder, hHost (hIn.mp hq)⟩
    · rw [hAtOther q hEq]
      exact hTidy.kept q ((hRooms q).mp hq).1
  · intro c q
    by_cases hEq : q = ptr
    · subst hEq
      rw [hHere]
      constructor
      · intro hc
        exact ⟨after, ⟨hIn.mpr (List.ne_nil_of_mem hc),
          hAtSelf⟩, hc⟩
      · rintro ⟨other, hOther, hc⟩
        rw [hOther.2] at hAtSelf
        cases hAtSelf
        exact hc
    · rw [hElsewhere c q hEq, hTidy.placed]
      unfold Holds
      rw [hAtOther q hEq, hRooms]
      simp [hEq]
  · intro q other hAt
    by_cases hEq : q = ptr
    · subst hEq
      rw [hAtSelf] at hAt
      cases hAt
      rw [hId]
      exact hTidy.numbered q room hHolds.2
    · rw [hAtOther q hEq] at hAt
      exact hTidy.numbered q other hAt
  · rw [hNext, hHeap, List.length_set]
    exact hTidy.next

/- A change of a room's session disturbs nobody. -/
theorem Tidy.withSession
    {session : Option GameSession}
    (hTidy : lobby.Tidy)
    (hHolds : lobby.Holds ptr room)
    (hAfter : after = { room with gameSession := session })
    (hOrder : after.InOrder)
    (world : World) :
    (lobby.setRoom ptr after world).Tidy := by
  have hId : after.id = room.id := by rw [hAfter]
  have hPlayers : after.players = room.players := by
    rw [hAfter]
  have hHost : after.host ∈ after.players := by
    rw [hAfter]
    exact (hTidy.of_holds hHolds).2
  refine hTidy.replace hHolds hId hOrder (fun _ => hHost) rfl
    hTidy.rooms_nodup ?_ ?_ (fun _ _ _ => Iff.rfl) rfl
  · intro q
    constructor
    · exact fun hq => ⟨hq, fun _ => List.ne_nil_of_mem hHost⟩
    · exact fun hq => hq.1
  · intro c
    rw [hPlayers]
    exact hTidy.find_iff hHolds c

/- A player without a room comes to sit in one. -/
theorem Tidy.seat
    {session : Option GameSession}
    (hTidy : lobby.Tidy)
    (hHolds : lobby.Holds ptr room)
    (hFree : lobby.playerRooms.find player = none)
    (hAfter : after = { room with
      players := room.players ++ [player]
      gameSession := session })
    (hOrder : after.InOrder)
    (world : World) :
    ((lobby.setRoom ptr after world).insertPlayerRoom
      player ptr).Tidy := by
  have hId : after.id = room.id := by rw [hAfter]
  have hPlayers : after.players = room.players ++ [player] := by
    rw [hAfter]
  have hHost : after.host ∈ after.players := by
    rw [hAfter]
    exact List.mem_append_left _ (hTidy.of_holds hHolds).2
  have hSet : (lobby.setRoom ptr after world).insertPlayerRoom
      player ptr = _ := insertPlayerRoom_of_free hFree
  rw [hSet]
  refine hTidy.replace hHolds hId hOrder (fun _ => hHost) rfl
    hTidy.rooms_nodup ?_ ?_ ?_ rfl
  · intro q
    constructor
    · exact fun hq => ⟨hq, fun _ => List.ne_nil_of_mem hHost⟩
    · exact fun hq => hq.1
  · intro c
    change (lobby.playerRooms.set player ptr).find c = _ ↔ _
    rw [KeyMap.find_set, hPlayers, List.mem_append,
      List.mem_singleton]
    by_cases hEq : c = player
    · simp [hEq]
    · rw [if_neg hEq, hTidy.find_iff hHolds c]
      simp [hEq]
  · intro c q hNe
    change (lobby.playerRooms.set player ptr).find c = _ ↔ _
    rw [KeyMap.find_set]
    by_cases hEq : c = player
    · rw [if_pos hEq, hEq, hFree]
      simp [Ne.symm hNe]
    · rw [if_neg hEq]

/- A player leaves his room, which goes if he was the last. -/
theorem Tidy.unseat
    (hTidy : lobby.Tidy)
    (hHolds : lobby.Holds ptr room)
    (hMem : player ∈ room.players)
    (hId : after.id = room.id)
    (hPlayers : after.players = room.players.erase player)
    (hOrder : after.InOrder)
    (hHost : after.players ≠ [] →
      after.host ∈ after.players)
    (world : World) :
    (dropIfEmpty
      { lobby.setRoom ptr after world with
        playerRooms := lobby.playerRooms.erase player }
      ptr after).Tidy := by
  have hNodup := (hTidy.of_holds hHolds).1.nodup
  have hFind := (hTidy.placed player ptr).mpr
    ⟨room, hHolds, hMem⟩
  have hHere : ∀ c,
      (lobby.playerRooms.erase player).find c = some ptr ↔
        c ∈ after.players := by
    intro c
    rw [KeyMap.find_erase, hPlayers, hNodup.mem_erase_iff]
    by_cases hEq : c = player
    · simp [hEq]
    · rw [if_neg hEq, hTidy.find_iff hHolds c]
      simp [hEq]
  have hElsewhere : ∀ c q, q ≠ ptr →
      ((lobby.playerRooms.erase player).find c = some q ↔
        lobby.playerRooms.find c = some q) := by
    intro c q hNe
    rw [KeyMap.find_erase]
    by_cases hEq : c = player
    · rw [if_pos hEq, hEq, hFind]
      simp [Ne.symm hNe]
    · rw [if_neg hEq]
  unfold dropIfEmpty Room.playerCount
  by_cases hEmpty : after.players.length = 0
  · rw [if_pos hEmpty]
    refine hTidy.replace hHolds hId hOrder hHost rfl
      (hTidy.rooms_nodup.filter _) ?_ hHere hElsewhere rfl
    intro q
    change q ∈ lobby.rooms.filter _ ↔ _
    simp [List.length_eq_zero_iff.mp hEmpty]
  · rw [if_neg hEmpty]
    refine hTidy.replace hHolds hId hOrder hHost rfl
      hTidy.rooms_nodup ?_ hHere hElsewhere rfl
    intro q
    have hLeft : after.players ≠ [] :=
      fun h => hEmpty (by simp [h])
    constructor
    · exact fun hq => ⟨hq, fun _ => hLeft⟩
    · exact fun hq => hq.1

/- A new room with its creator comes in last. -/
theorem Tidy.extend
    (hTidy : lobby.Tidy)
    (hFree : lobby.playerRooms.find player = none)
    (hId : after.id = lobby.nextRoomId)
    (hPlayers : after.players = [player])
    (hHost : after.host = player)
    (hOrder : after.InOrder)
    (hHeap : new.heap = lobby.heap ++ [after])
    (hRooms : new.rooms = lobby.rooms ++ [lobby.heap.length])
    (hPlaces : new.playerRooms =
      lobby.playerRooms.set player lobby.heap.length)
    (hNext : new.nextRoomId = lobby.nextRoomId + 1) :
    new.Tidy := by
  have hOld : ∀ q ∈ lobby.rooms, q < lobby.heap.length := by
    intro q hq
    rcases hTidy.kept q hq with ⟨other, hAt, _⟩
    exact (List.getElem?_eq_some_iff.mp hAt).1
  have hAtNew : new.heap[lobby.heap.length]? = some after := by
    rw [hHeap]
    exact List.getElem?_concat_length
  have hAtOld : ∀ q, q < lobby.heap.length →
      new.heap[q]? = lobby.heap[q]? := by
    intro q hq
    rw [hHeap]
    exact List.getElem?_append_left hq
  have hSplit : ∀ q, q ∈ new.rooms ↔
      q ∈ lobby.rooms ∨ q = lobby.heap.length := by
    intro q
    rw [hRooms, List.mem_append, List.mem_singleton]
  refine ⟨?_, ?_, ?_, ?_, ?_⟩
  · rw [hRooms]
    refine hTidy.rooms_nodup.append
      (List.nodup_singleton _) ?_
    rw [List.disjoint_singleton]
    exact fun hIn => Nat.lt_irrefl _ (hOld _ hIn)
  · intro q hq
    rcases (hSplit q).mp hq with hIn | rfl
    · rw [hAtOld q (hOld q hIn)]
      exact hTidy.kept q hIn
    · exact ⟨after, hAtNew, hOrder, by
        rw [hHost, hPlayers]
        exact List.mem_singleton_self player⟩
  · intro c q
    rw [hPlaces, KeyMap.find_set]
    by_cases hNew : q = lobby.heap.length
    · subst hNew
      have hMember : (∃ other,
          new.Holds lobby.heap.length other ∧
            c ∈ other.players) ↔ c = player := by
        constructor
        · rintro ⟨other, hOther, hc⟩
          have hSame := hOther.2
          rw [hAtNew] at hSame
          cases hSame
          rw [hPlayers] at hc
          exact List.mem_singleton.mp hc
        · rintro rfl
          exact ⟨after, ⟨(hSplit _).mpr (Or.inr rfl),
            hAtNew⟩, by simp [hPlayers]⟩
      rw [hMember]
      by_cases hEq : c = player
      · simp [hEq]
      · rw [if_neg hEq]
        simp only [hEq, iff_false]
        intro hFind
        rcases (hTidy.placed c _).mp hFind with
          ⟨_, hHolds, _⟩
        exact Nat.lt_irrefl _ (hOld _ hHolds.1)
    · have hHolds : ∀ other, new.Holds q other ↔
          lobby.Holds q other := by
        intro other
        unfold Holds
        rw [hSplit]
        constructor
        · rintro ⟨hIn, hAt⟩
          have hIn := hIn.resolve_right hNew
          rw [hAtOld q (hOld q hIn)] at hAt
          exact ⟨hIn, hAt⟩
        · rintro ⟨hIn, hAt⟩
          rw [hAtOld q (hOld q hIn)]
          exact ⟨Or.inl hIn, hAt⟩
      simp only [hHolds]
      rw [← hTidy.placed]
      by_cases hEq : c = player
      · rw [if_pos hEq, hEq, hFree]
        simp [Ne.symm hNew]
      · rw [if_neg hEq]
  · intro q other hAt
    rw [hHeap] at hAt
    by_cases hLt : q < lobby.heap.length
    · rw [List.getElem?_append_left hLt] at hAt
      exact hTidy.numbered q other hAt
    · have hEq : q = lobby.heap.length := by
        have hLength :=
          (List.getElem?_eq_some_iff.mp hAt).1
        rw [List.length_append, List.length_singleton]
          at hLength
        omega
      subst hEq
      rw [List.getElem?_concat_length] at hAt
      cases hAt
      rw [hId]
      exact hTidy.next
  · rw [hNext, hTidy.next, hHeap, List.length_append,
      List.length_singleton,
      UInt64.ofNat_add (lobby.heap.length + 1) 1]
    rfl

------------------------------------------------------------
-- Calls
------------------------------------------------------------

/- Telling everybody the list of rooms changes no room. -/
theorem broadcastRoomList_of_ok
    (hOk : lobby.broadcastRoomList = .ok new) :
    ∃ world, new = { lobby with world := world } := by
  unfold broadcastRoomList at hOk
  cases hRegistry : lobby.connectionRegistry with
  | none =>
      rw [hRegistry] at hOk
      cases hOk
      exact ⟨lobby.world, by rw [← hRegistry]⟩
  | some connections =>
      rw [hRegistry] at hOk
      rcases Except.bind_eq_ok.mp hOk with
        ⟨roomList, _, hRest⟩
      cases hRest
      exact ⟨_, by rw [← hRegistry]⟩

theorem Tidy.broadcastRoomList
    (hTidy : lobby.Tidy)
    (hOk : lobby.broadcastRoomList = .ok new) :
    new.Tidy := by
  rcases broadcastRoomList_of_ok hOk with ⟨world, rfl⟩
  exact hTidy.of_world world

/- A room that is found is one of those looked through. -/
theorem mem_of_findRoom
    {id : UInt64}
    {ptrs : List RoomPtr}
    (hFind : lobby.findRoom id ptrs = .ok (some ptr)) :
    ptr ∈ ptrs := by
  induction ptrs with
  | nil => cases hFind
  | cons q qs ih =>
      rcases Except.bind_eq_ok.mp hFind with
        ⟨room, hRoom, hRest⟩
      split at hRest
      · cases hRest
        exact List.mem_cons_self ..
      · exact List.mem_cons_of_mem _ (ih hRest)

/- A room that a player has left is written back. -/
theorem Tidy.unseat_of_ok
    {removed : Bool}
    {world : World}
    (hTidy : lobby.Tidy)
    (hHolds : lobby.Holds ptr room)
    (hMem : player ∈ room.players)
    (hRemove : room.removePlayer lobby.world player shuffles =
      .ok (removed, after, world)) :
    (dropIfEmpty
      { lobby.setRoom ptr after world with
        playerRooms := lobby.playerRooms.erase player }
      ptr after).Tidy := by
  rcases hTidy.of_holds hHolds with ⟨hOrder, hHost⟩
  rcases Room.removePlayer_of_ok hOrder hMem hRemove with
    ⟨hAfter, session, hShape⟩
  have hPlayers :
      after.players = room.players.erase player := by
    rw [hShape]
  have hNewHost : after.players ≠ [] →
      after.host ∈ after.players := by
    intro hLeft
    rw [hPlayers] at hLeft
    rw [hShape]
    exact Room.hostAfter_mem hHost hLeft
  exact hTidy.unseat hHolds hMem (by rw [hShape]) hPlayers
    hAfter hNewHost world

/- Whoever leaves is in no room, and all is in order. -/
theorem Tidy.leaveRoom
    (hTidy : lobby.Tidy)
    (hOk : lobby.leaveRoom player shuffles = .ok new) :
    new.Tidy ∧ new.playerRooms.find player = none := by
  unfold Lobby.leaveRoom at hOk
  cases hFind : lobby.playerRooms.find player with
  | none =>
      rw [hFind] at hOk
      cases hOk
      exact ⟨hTidy, hFind⟩
  | some ptr =>
      rw [hFind] at hOk
      rcases Except.bind_eq_ok.mp hOk with
        ⟨room, hRoom, hRest⟩
      rcases hTidy.holds_of_find hFind hRoom with
        ⟨hHolds, hMem⟩
      rcases Except.bind_eq_ok.mp hRest with
        ⟨⟨removed, after, world⟩, hRemove, hTell⟩
      have hUnseated := hTidy.unseat_of_ok hHolds hMem hRemove
      refine ⟨hUnseated.broadcastRoomList hTell, ?_⟩
      rcases broadcastRoomList_of_ok hTell with ⟨w, rfl⟩
      dsimp only
      unfold dropIfEmpty
      split
      · exact if_pos rfl
      · exact if_pos rfl

theorem Tidy.leavePresentRoom
    (hTidy : lobby.Tidy)
    (hOk : lobby.leavePresentRoom player shuffles =
      .ok new) :
    new.Tidy ∧ new.playerRooms.find player = none := by
  unfold Lobby.leavePresentRoom at hOk
  split at hOk
  · exact hTidy.leaveRoom hOk
  · rename_i hNone
    cases hOk
    exact ⟨hTidy, by simpa using hNone⟩

/- The room that `create_room` has just made. -/
def freshRoom
    (lobby : Lobby)
    (name : String)
    (maxPlayers : UInt8)
    (creator : ConnId) : Room where
  id := lobby.nextRoomId
  name := name
  maxPlayers := maxPlayers
  host := creator

theorem freshRoom_of_ok
    {name : String}
    {maxPlayers : UInt8}
    (hRoom : (lobby.makeRoom name maxPlayers player).room
      lobby.heap.length = .ok room) :
    room = lobby.freshRoom name maxPlayers player := by
  unfold Lobby.room at hRoom
  rw [require_eq_ok] at hRoom
  simpa [makeRoom, freshRoom] using hRoom.symm

theorem freshRoom_inOrder
    {name : String}
    {maxPlayers : UInt8}
    (hMax : 2 ≤ maxPlayers.toNat) :
    (lobby.freshRoom name maxPlayers player).InOrder :=
  ⟨by simp [freshRoom], by simp [freshRoom], hMax,
    by simp [freshRoom]⟩

/- A new room with its creator is written back. -/
theorem Tidy.extend_of_ok
    {name : String}
    {maxPlayers : UInt8}
    {added : Bool}
    {world : World}
    (hTidy : lobby.Tidy)
    (hFree : lobby.playerRooms.find player = none)
    (hMax : 2 ≤ maxPlayers.toNat)
    (hRoom : room = lobby.freshRoom name maxPlayers player)
    (hAdd : room.addPlayer lobby.world player shuffles =
      .ok (added, after, world)) :
    (((lobby.makeRoom name maxPlayers player).setRoom
      lobby.heap.length after world).insertPlayerRoom
        player lobby.heap.length).Tidy := by
  subst hRoom
  rcases Room.addPlayer_of_ok (freshRoom_inOrder hMax)
      (by simp [freshRoom]) hAdd with
    ⟨_, _, _, hStarted | hFull⟩ |
      ⟨_, hAfter, session, hShape⟩
  · simp [freshRoom] at hStarted
  · simp only [freshRoom, List.length_nil] at hFull
    omega
  · have hSet :
        ((lobby.makeRoom name maxPlayers player).setRoom
          lobby.heap.length after world).insertPlayerRoom
            player lobby.heap.length = _ :=
      insertPlayerRoom_of_free hFree
    rw [hSet]
    refine hTidy.extend hFree (by rw [hShape]; rfl)
      (by rw [hShape]; rfl) (by rw [hShape]; rfl)
      hAfter ?_ rfl rfl rfl
    simp [makeRoom, setRoom]

/- A new room holds its creator and nobody else. -/
theorem Tidy.createRoom
    {name : String}
    {maxPlayers : UInt8}
    {draws : Draws}
    {made : Option RoomPtr}
    (hTidy : lobby.Tidy)
    (hOk : lobby.createRoom name maxPlayers player draws =
      .ok (made, new)) :
    new.Tidy := by
  unfold Lobby.createRoom at hOk
  split at hOk
  · cases hOk
    exact hTidy
  · rename_i hMax
    split at hOk
    · cases hOk
      exact hTidy
    · rcases Except.bind_eq_ok.mp hOk with
        ⟨left, hLeave, hRest⟩
      rcases hTidy.leavePresentRoom hLeave with
        ⟨hLeft, hFree⟩
      rcases Except.bind_eq_ok.mp hRest with
        ⟨room, hRoom, hEnter⟩
      rcases Except.bind_eq_ok.mp hEnter with
        ⟨⟨added, after, world⟩, hAdd, hInsert⟩
      rcases Except.bind_eq_ok.mp hInsert with
        ⟨told, hTell, hEnd⟩
      cases hEnd
      exact (hLeft.extend_of_ok hFree
        (Nat.le_of_not_lt hMax)
        (freshRoom_of_ok hRoom) hAdd).broadcastRoomList hTell

/- A room that a player has entered is written back. -/
theorem Tidy.seat_of_ok
    {added : Bool}
    {world : World}
    (hTidy : lobby.Tidy)
    (hHolds : lobby.Holds ptr room)
    (hFree : lobby.playerRooms.find player = none)
    (hOpen : ¬ room.gameSession.isSome)
    (hRoomLeft : ¬ room.maxPlayers.toNat ≤
      room.players.length)
    (hAdd : room.addPlayer lobby.world player shuffles =
      .ok (added, after, world)) :
    added = true ∧
      ((lobby.setRoom ptr after world).insertPlayerRoom
        player ptr).Tidy := by
  have hNew : player ∉ room.players := by
    rw [← hTidy.find_iff hHolds, hFree]
    simp
  rcases Room.addPlayer_of_ok (hTidy.of_holds hHolds).1 hNew
      hAdd with
    ⟨_, _, _, hStarted | hFull⟩ |
      ⟨rfl, hAfter, session, hShape⟩
  · exact absurd hStarted hOpen
  · exact absurd hFull hRoomLeft
  · exact ⟨rfl, hTidy.seat hHolds hFree hShape hAfter world⟩

/- A player without a room enters one or stays outside. -/
theorem Tidy.enterRoom
    {roomId : UInt64}
    {error : Option ErrorCode}
    (hTidy : lobby.Tidy)
    (hFree : lobby.playerRooms.find player = none)
    (hOk : lobby.enterRoom roomId player shuffles =
      .ok (error, new)) :
    new.Tidy := by
  unfold Lobby.enterRoom at hOk
  rcases Except.bind_eq_ok.mp hOk with ⟨found, hGet, hRest⟩
  cases found with
  | none =>
      cases hRest
      exact hTidy
  | some ptr =>
      rcases Except.bind_eq_ok.mp hRest with
        ⟨room, hRoom, hChecks⟩
      have hHolds : lobby.Holds ptr room :=
        ⟨mem_of_findRoom hGet, require_eq_ok.mp hRoom⟩
      split at hChecks
      · cases hChecks
        exact hTidy
      · split at hChecks
        · cases hChecks
          exact hTidy
        · rename_i hOpen hRoomLeft
          rcases Except.bind_eq_ok.mp hChecks with
            ⟨⟨added, after, world⟩, hAdd, hEnter⟩
          rcases hTidy.seat_of_ok hHolds hFree hOpen hRoomLeft
              hAdd with
            ⟨rfl, hSeat⟩
          rcases Except.bind_eq_ok.mp hEnter with
            ⟨told, hTell, hEnd⟩
          cases hEnd
          exact hSeat.broadcastRoomList hTell

theorem Tidy.joinRoom
    {roomId : UInt64}
    {draws : Draws}
    {error : Option ErrorCode}
    (hTidy : lobby.Tidy)
    (hOk : lobby.joinRoom roomId player draws =
      .ok (error, new)) :
    new.Tidy := by
  unfold Lobby.joinRoom at hOk
  split at hOk
  · cases hOk
    exact hTidy
  · rcases Except.bind_eq_ok.mp hOk with ⟨same, _, hRest⟩
    cases same with
    | true =>
        cases hRest
        exact hTidy
    | false =>
        rcases Except.bind_eq_ok.mp hRest with
          ⟨left, hLeave, hEnter⟩
        rcases hTidy.leavePresentRoom hLeave with
          ⟨hLeft, hFree⟩
        exact hLeft.enterRoom hFree hEnter

theorem Tidy.startGame
    {error : Option ErrorCode}
    (hTidy : lobby.Tidy)
    (hOk : lobby.startGame player shuffles =
      .ok (error, new)) :
    new.Tidy := by
  unfold Lobby.startGame findRoomByPlayer at hOk
  cases hFind : lobby.playerRooms.find player with
  | none =>
      rw [hFind] at hOk
      cases hOk
      exact hTidy
  | some ptr =>
      rw [hFind] at hOk
      rcases Except.bind_eq_ok.mp hOk with
        ⟨room, hRoom, hRest⟩
      have hHolds := (hTidy.holds_of_find hFind hRoom).1
      rcases Except.bind_eq_ok.mp hRest with
        ⟨⟨code, after, world⟩, hStart, hEnd⟩
      rcases Room.tryStartGame_of_ok
          (hTidy.of_holds hHolds).1 hStart with
        ⟨session, hShape, hAfter⟩
      have hSet := hTidy.withSession hHolds hShape hAfter
        world
      cases code with
      | some code =>
          cases hEnd
          exact hSet
      | none =>
          rcases Except.bind_eq_ok.mp hEnd with
            ⟨told, hTell, hDone⟩
          cases hDone
          exact hSet.broadcastRoomList hTell

theorem Tidy.playerAction
    {action : Action}
    {amount : Option UInt32}
    (hTidy : lobby.Tidy)
    (hOk : lobby.playerAction player action amount shuffles =
      .ok new) :
    new.Tidy := by
  unfold Lobby.playerAction findRoomByPlayer at hOk
  cases hFind : lobby.playerRooms.find player with
  | none =>
      rw [hFind] at hOk
      cases hOk
      exact hTidy
  | some ptr =>
      rw [hFind] at hOk
      rcases Except.bind_eq_ok.mp hOk with
        ⟨room, hRoom, hRest⟩
      have hHolds := (hTidy.holds_of_find hFind hRoom).1
      rcases Except.bind_eq_ok.mp hRest with
        ⟨⟨after, world⟩, hAct, hEnd⟩
      cases hEnd
      rcases Room.onPlayerAction_of_ok
          (hTidy.of_holds hHolds).1 hAct with
        ⟨session, hShape, hAfter⟩
      exact hTidy.withSession hHolds hShape hAfter world

/- Every call keeps the lobby tidy. -/
theorem Tidy.step
    {call : Call}
    (hTidy : lobby.Tidy)
    (hOk : lobby.step call = .ok new) :
    new.Tidy := by
  cases call with
  | createRoom name maxPlayers creator draws =>
      rcases Except.map_eq_ok.mp hOk with
        ⟨⟨made, after⟩, hCreate, rfl⟩
      exact hTidy.createRoom hCreate
  | joinRoom roomId player draws =>
      rcases Except.map_eq_ok.mp hOk with
        ⟨⟨error, after⟩, hJoin, rfl⟩
      exact hTidy.joinRoom hJoin
  | leaveRoom player shuffles =>
      exact (hTidy.leaveRoom hOk).1
  | startGame player shuffles =>
      rcases Except.map_eq_ok.mp hOk with
        ⟨⟨error, after⟩, hStart, rfl⟩
      exact hTidy.startGame hStart
  | playerAction player action amount shuffles =>
      exact hTidy.playerAction hOk

------------------------------------------------------------
-- Runs
------------------------------------------------------------

/- Every lobby that is reached is tidy. -/
theorem Run.tidy
    {world : World}
    {registry : Option (List ConnId)}
    {trace : List (Lobby × Call)}
    (run : Run world registry trace lobby) :
    lobby.Tidy :=
  Transition.Run.invariant_of_step
    (fun _ _ _ hTidy hOk => hTidy.step hOk)
    run (opening_tidy world registry)

end Lobby

end Server

end Poker

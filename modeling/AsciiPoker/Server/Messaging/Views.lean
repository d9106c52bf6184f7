import AsciiPoker.Server.Lobby.Views
import AsciiPoker.Server.Messaging.Requests

/-
  Between two events nobody who is online has an old room
  list, and nobody in a room an old view of it.

  A connection that is not authenticated was never sent a
  room list, so it has no old one when it comes online.

  Main declarations:
    * `Lobby.Informed.carry`
    * `Handshake.Informed`, `Handshake.Informed.step`
    * `Handshake.Run.views_current`
-/

namespace Poker

namespace Server

open Protocol

------------------------------------------------------------
-- The Lobby Between Calls
------------------------------------------------------------

namespace Lobby

variable {lobby mid new after : Lobby}
variable {known known' : ConnId → Prop}
variable {player : ConnId}

/-
  Nothing of the rooms changes, nobody in a room is renamed,
  and whoever is registered was registered or is new.
-/
theorem Informed.carry
    {more : List (ConnId × ServerMessage)}
    (hTidy : lobby.Tidy)
    (hInformed : lobby.Informed known)
    (hHeap : new.heap = lobby.heap)
    (hRooms : new.rooms = lobby.rooms)
    (hNames : ∀ c ptr,
      lobby.playerRooms.find c = some ptr →
        new.world.names c = lobby.world.names c)
    (hOutbox : new.world.outbox =
      lobby.world.outbox ++ more)
    (hMore : ∀ letter ∈ more,
      roomList? letter.2 = none ∧
        joinedRoom? letter.2 = none)
    (hKnown : ∀ c, known c → known' c)
    (hRegistry : ∀ connections ∈ new.connectionRegistry,
      ∀ c ∈ connections, known' c ∧
        ((∃ old ∈ lobby.connectionRegistry, c ∈ old) ∨
          ¬ known c)) :
    new.Informed known' := by
  have hHolds : ∀ ptr room, new.Holds ptr room →
      lobby.Holds ptr room := by
    intro ptr room hHolds
    unfold Holds at hHolds ⊢
    rw [hHeap, hRooms] at hHolds
    exact hHolds
  have hLists : ∀ c, Mailbox.picked roomList? c more = [] := by
    intro c
    exact Mailbox.picked_eq_nil fun m hm => (hMore _ hm).1
  have hLast : ∀ c,
      Mailbox.last roomList? c new.world.outbox =
        Mailbox.last roomList? c lobby.world.outbox := by
    intro c
    rw [hOutbox, Mailbox.last_append_of_nil (hLists c)]
  have hList : new.getRoomList = lobby.getRoomList := by
    apply getRoomList_congr hRooms
    intro ptr _
    unfold Lobby.room
    rw [hHeap]
  refine ⟨⟨?_, ?_, ?_⟩, ?_⟩
  · intro ptr room hRoom
    have hBefore := hHolds ptr room hRoom
    have hSeat : ∀ c ∈ room.players,
        new.world.names c = lobby.world.names c := by
      intro c hc
      exact hNames c ptr ((hTidy.find_iff hBefore c).mpr hc)
    apply (hInformed.posted.shown ptr room hBefore).of_outbox
      hSeat (hSeat _ (hTidy.of_holds hBefore).2) hOutbox
    exact fun c _ =>
      Mailbox.picked_eq_nil fun m hm => (hMore _ hm).2
  · intro c hUnknown
    rw [hOutbox, Mailbox.picked_append, hLists,
      List.append_nil]
    exact hInformed.posted.unlisted c
      fun hOld => hUnknown (hKnown c hOld)
  · exact fun connections hSome c hMem =>
      (hRegistry connections hSome c hMem).1
  · intro connections hSome c hMem roomList hFound
    rw [hLast] at hFound
    rw [hList]
    rcases (hRegistry connections hSome c hMem).2 with
      ⟨old, hOld, hThere⟩ | hUnknown
    · exact hInformed.listed old hOld c hThere roomList hFound
    · unfold Mailbox.last at hFound
      rw [hInformed.posted.unlisted c hUnknown] at hFound
      cases hFound

/- A message about something else. -/
theorem Informed.send
    {msg : ServerMessage}
    (hTidy : lobby.Tidy)
    (hInformed : lobby.Informed known)
    (hList : roomList? msg = none)
    (hJoined : joinedRoom? msg = none) :
    (lobby.send player msg).Informed known := by
  refine hInformed.carry hTidy rfl rfl (fun _ _ _ => rfl) rfl
    ?_ (fun _ h => h) ?_
  · intro letter hMem
    rw [List.mem_singleton.mp hMem]
    exact ⟨hList, hJoined⟩
  · intro connections hSome c hMem
    exact ⟨hInformed.posted.covered connections hSome c hMem,
      Or.inl ⟨connections, hSome, hMem⟩⟩

/- The present list, sent to somebody who is known. -/
theorem Informed.sendList
    {roomList : RoomList}
    (hInformed : lobby.Informed known)
    (hPlayer : known player)
    (hList : lobby.getRoomList = .ok roomList) :
    (lobby.send player (.roomList roomList)).Informed
      known := by
  refine ⟨⟨?_, ?_, hInformed.posted.covered⟩, ?_⟩
  · intro ptr room hHolds
    refine Room.Shown.of_outbox
      (hInformed.posted.shown ptr room hHolds) ?_ ?_ rfl ?_
    · exact fun _ _ => rfl
    · rfl
    · intro c _
      apply Mailbox.picked_eq_nil
      intro m hm
      cases List.mem_singleton.mp hm
      rfl
  · intro c hUnknown
    change Mailbox.picked roomList? c
      (lobby.world.outbox ++ [(player, _)]) = []
    rw [Mailbox.picked_append,
      hInformed.posted.unlisted c hUnknown]
    apply Mailbox.picked_eq_nil
    intro m hm
    cases List.mem_singleton.mp hm
    exact absurd hPlayer hUnknown
  · intro connections hSome c hMem found hLast
    change Mailbox.last roomList? c
      (lobby.world.outbox ++
        Mailbox.toAll [player] fun _ => .roomList roomList) =
          some found at hLast
    change lobby.getRoomList = .ok found
    by_cases hEq : c = player
    · subst hEq
      have hTold : Mailbox.last roomList? c
          (lobby.world.outbox ++
            Mailbox.toAll [c] fun _ => .roomList roomList) =
              some roomList :=
        Mailbox.last_append_of_some
          (Mailbox.last_toAll (List.mem_singleton_self c) rfl)
      have hSame : roomList = found :=
        Option.some.inj (hTold.symm.trans hLast)
      rw [← hSame]
      exact hList
    · have hNone : Mailbox.picked roomList? c
          (Mailbox.toAll [player] fun _ =>
            .roomList roomList) = [] :=
        Mailbox.picked_toAll_of_notMem (by simpa using hEq)
      rw [Mailbox.last_append_of_nil hNone] at hLast
      exact hInformed.listed connections hSome c hMem found
        hLast

theorem Informed.called
    (hTidy : lobby.Tidy)
    (hInformed : lobby.Informed known)
    (hCalled : lobby.Called player mid) :
    mid.Informed known := by
  rcases hCalled with rfl | ⟨call, _, hOk⟩
  · exact hInformed
  · exact hInformed.step hTidy hOk

theorem Informed.answered
    (hTidy : mid.Tidy)
    (hInformed : mid.Informed known)
    (hPlayer : known player)
    (hAnswered : mid.Answered player after) :
    after.Informed known := by
  cases hAnswered with
  | silent => exact hInformed
  | refused => exact hInformed.send hTidy rfl rfl
  | left => exact hInformed.send hTidy rfl rfl
  | listed hList => exact hInformed.sendList hPlayer hList

end Lobby

------------------------------------------------------------
-- Events
------------------------------------------------------------

namespace Handshake

variable {parse : Parser}
variable {pbkdf2 : Pbkdf2}
variable {users : UserRepository}
variable {h after : Handshake}
variable {c : ConnId}
variable {e : Event}

/- Only the authenticated were ever sent a room list. -/
def Informed
    (h : Handshake) : Prop :=
  h.lobby.Informed fun c => c ∈ h.authenticated

theorem opening_informed
    (users : UserRepository) :
    (opening users).Informed := by
  refine ⟨⟨?_, fun _ _ => rfl, ?_⟩, ?_⟩
  · rintro ptr room ⟨hIn, _⟩
    cases hIn
  · intro connections hSome c hMem
    cases hSome
    cases hMem
  · intro connections hSome c hMem
    cases hSome
    cases hMem

/- A connection that is not authenticated has no room. -/
theorem Guarded.ne_of_find
    {d : ConnId}
    {ptr : RoomPtr}
    (hGuarded : h.Guarded)
    (hNew : c ∉ h.authenticated)
    (hFind : h.lobby.playerRooms.find d = some ptr) :
    d ≠ c :=
  ne_of_online hNew (hGuarded.online d ptr hFind)

/- A login, whether it is let in or not. -/
theorem Informed.finishAuthentication
    {found : UserRepository}
    {username : String}
    {chips : UInt32}
    {isNewAccount : Bool}
    (hGuarded : h.Guarded)
    (hInformed : h.Informed)
    (hNew : c ∉ h.authenticated) :
    ((h.setUsers found).finishAuthentication username c chips
      isNewAccount).Informed := by
  have hSeated := hInformed.posted.covered
  by_cases hTaken : username ∈ (h.setUsers found).nameRegistry
  · rw [finishAuthentication_of_taken hTaken]
    refine Lobby.Informed.carry hGuarded.tidy hInformed rfl rfl
      (fun _ _ _ => rfl) rfl ?_ (fun _ h => h) ?_
    · intro letter hMem
      rw [List.mem_singleton.mp hMem]
      exact ⟨rfl, rfl⟩
    · intro connections hSome d hMem
      exact ⟨hSeated connections hSome d hMem,
        Or.inl ⟨connections, hSome, hMem⟩⟩
  · rw [finishAuthentication_of_free hTaken]
    refine Lobby.Informed.carry hGuarded.tidy hInformed rfl rfl
      ?_ rfl ?_ ?_ ?_
    · intro d ptr hFind
      exact Function.update_of_ne
        (hGuarded.ne_of_find hNew hFind) ..
    · intro letter hMem
      rw [List.mem_singleton.mp hMem]
      exact ⟨rfl, rfl⟩
    · exact fun d hd => Finset.mem_insert_of_mem hd
    · intro connections hSome d hMem
      change connections ∈ h.lobby.connectionRegistry.map
        (fun old => old.insert c) at hSome
      rcases Option.mem_map.mp hSome with ⟨old, hOld, rfl⟩
      rcases List.mem_insert_iff.mp hMem with rfl | hThere
      · exact ⟨Finset.mem_insert_self .., Or.inr hNew⟩
      · exact ⟨Finset.mem_insert_of_mem
          (hSeated old hOld d hThere),
          Or.inl ⟨old, hOld, hThere⟩⟩

/- Every event leaves everybody informed. -/
theorem Informed.step
    (hGuarded : h.Guarded)
    (hInformed : h.Informed)
    (hOk : h.step parse pbkdf2 e = .ok after) :
    after.Informed := by
  cases e with
  | message c body draws salt =>
      rcases processed_of_step hOk with ⟨_, hProcessed⟩
      cases hProcessed with
      | refused hNobody =>
          exact Lobby.Informed.send hGuarded.tidy hInformed
            rfl rfl
      | requested hThere hProcess =>
          rcases Lobby.processClientMessage_of_ok hProcess
            with ⟨mid, hCalled, hAnswered⟩
          have hMid := Lobby.Informed.called hGuarded.tidy
            hInformed hCalled
          exact hMid.answered (hCalled.tidy hGuarded.tidy)
            hThere hAnswered
      | opened hNew hLogin hUsers hName hPassword hOpens
          hFind =>
          exact hInformed.finishAuthentication hGuarded hNew
  | disconnect c shuffles =>
      rcases onDisconnect_of_step hOk with ⟨_, hGone⟩
      rcases leaveRoom_of_onDisconnect hGone with
        ⟨mid, hSame, hWorld, hLeave⟩
      have hAuthenticated := (onDisconnect_of_ok hGone).2.1
      have hRegistry : mid.lobby.connectionRegistry = _ :=
        (Lobby.leaveRoom_keeps hLeave).registry.symm.trans
          (onDisconnect_registry hGone)
      have hSeated := hInformed.posted.covered
      have hMid : mid.lobby.Informed
          fun d => d ∈ h.authenticated := by
        refine Lobby.Informed.carry hGuarded.tidy hInformed
          hSame.heap hSame.rooms
          (fun _ _ _ => by rw [hWorld])
          (by rw [hWorld, List.append_nil]) (by simp)
          (fun _ h => h) ?_
        intro connections hSome d hMem
        rw [hRegistry] at hSome
        by_cases hThere : c ∈ h.authenticated
        · rw [if_pos hThere] at hSome
          rcases Option.mem_map.mp hSome with ⟨old, hOld, rfl⟩
          have hBefore := List.mem_of_mem_erase hMem
          exact ⟨hSeated old hOld d hBefore,
            Or.inl ⟨old, hOld, hBefore⟩⟩
        · rw [if_neg hThere] at hSome
          exact ⟨hSeated connections hSome d hMem,
            Or.inl ⟨connections, hSome, hMem⟩⟩
      unfold Informed
      rw [hAuthenticated]
      exact hMid.leaveRoom (hSame.tidy hGuarded.tidy) hLeave

------------------------------------------------------------
-- Runs
------------------------------------------------------------

variable {trace : List (Handshake × Event)}

theorem Run.informed
    (run : Run parse pbkdf2 users trace h) :
    h.Informed := by
  have hBoth : h.Guarded ∧ h.Informed :=
    Transition.Run.invariant_of_step
      (fun (t : Handshake) _ _
          (hKept : t.Guarded ∧ t.Informed) hOk =>
        ⟨hKept.1.step hOk, hKept.2.step hKept.1 hOk⟩)
      run ⟨opening_guarded users, opening_informed users⟩
  exact hBoth.2

/-
  In every state between two events: the last room list of
  whoever is registered is the present one, and the last
  `JoinedRoom` of whoever sits in a room shows that room as
  it is.
-/
theorem Run.views_current
    (run : Run parse pbkdf2 users trace h) :
    (∃ connections,
        h.lobby.connectionRegistry = some connections ∧
        ∀ c ∈ connections, ∀ roomList,
          Mailbox.last roomList? c h.lobby.world.outbox =
              some roomList →
            h.lobby.getRoomList = .ok roomList) ∧
      ∀ ptr room, h.lobby.Holds ptr room →
        ∀ c ∈ room.players, ∃ joined,
          Mailbox.last joinedRoom? c h.lobby.world.outbox =
              some joined ∧
            room.ShownBy h.lobby.world joined := by
  have hInformed := Run.informed run
  rcases Run.listed run with ⟨connections, hSome, _⟩
  exact ⟨⟨connections, hSome,
      hInformed.listed connections hSome⟩,
    hInformed.posted.shown⟩

------------------------------------------------------------
-- A Room of Alice's
------------------------------------------------------------

/- The JSON of a request for a table of two. -/
def createData : Json :=
  .object
    [("data", .object
        [("max_players", .unsigned 2),
          ("room_name", .string "Table")]),
      ("type", .string "create_room")]

/- The packet of that request. -/
def createBody : List UInt8 :=
  String.toByteArray
      ("\x7b\"type\":\"create_room\",\"data\":" ++
        "\x7b\"room_name\":\"Table\",\"max_players\":2" ++
        "\x7d\x7d")
    |>.toList

def tableParser : Parser := fun body =>
  if body = createBody then
    .value createData
  else
    loginParser body

/- Alice makes a room and is shown it, alone. -/
theorem aliceCreates_views :
    ∃ trace h,
      Run tableParser loginPbkdf2 aliceUsers trace h ∧
        trace.length = 2 ∧
        ∃ room, h.lobby.Holds 0 room ∧ 0 ∈ room.players ∧
          ∃ joined,
            Mailbox.last joinedRoom? 0 h.lobby.world.outbox =
                some joined ∧
              room.ShownBy h.lobby.world joined := by
  have hPasses : Transition.passes
      (step tableParser loginPbkdf2) (opening aliceUsers)
      [login 0 "Alice", .message 0 createBody {} none]
      (fun trace h =>
        decide (trace.length = 2 ∧ 0 ∈ h.lobby.rooms ∧
          (h.lobby.heap.map Room.players)[0]? = some [0])) =
        true := by
    decide +kernel
  rcases Transition.exists_run_of_passes hPasses with
    ⟨trace, h, run, hTest⟩
  rcases of_decide_eq_true hTest with
    ⟨hLength, hListed, hSeats⟩
  rw [List.getElem?_map, Option.map_eq_some_iff] at hSeats
  rcases hSeats with ⟨room, hAt, hPlayers⟩
  have hMem : 0 ∈ room.players := by
    rw [hPlayers]
    exact List.mem_singleton_self 0
  exact ⟨trace, h, run, hLength, room, ⟨hListed, hAt⟩, hMem,
    (Run.views_current run).2 0 room ⟨hListed, hAt⟩ 0 hMem⟩

end Handshake

end Server

end Poker

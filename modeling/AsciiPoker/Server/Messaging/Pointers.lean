import AsciiPoker.Server.GameSession.Pointers
import AsciiPoker.Server.Messaging.Registries
import AsciiPoker.Server.Messaging.Views

/-
  The raw pointers of the server between two events.

  The `io_context` owns the connections, the lobby its rooms
  and a session its players.  Everything else is a raw
  pointer: in the registry of the connections, in the rooms,
  in `player_rooms_` and in the tables of the sessions.

  Main declarations:
    * `Handshake.Anchored`
    * `Handshake.Run.anchored`
-/

namespace Poker

namespace Server

namespace Handshake

variable {parse : Parser}
variable {pbkdf2 : Pbkdf2}
variable {users : UserRepository}
variable {h : Handshake}

/- Every raw pointer is to an object that is still there. -/
structure Anchored
    (h : Handshake) : Prop where
  registry : ∀ connections,
    h.lobby.connectionRegistry = some connections →
      ∀ c ∈ connections, h.Online c
  rooms : ∀ ptr ∈ h.lobby.rooms,
    ∃ room, h.lobby.Holds ptr room
  playerRooms : ∀ c ptr,
    h.lobby.playerRooms.find c = some ptr →
      h.Online c ∧ ptr ∈ h.lobby.rooms
  seats : ∀ ptr room, h.lobby.Holds ptr room →
    h.Online room.host ∧ ∀ c ∈ room.players, h.Online c
  sessions : ∀ ptr room, h.lobby.Holds ptr room →
    ∀ s ∈ room.gameSession, s.Owned
  connections : ∀ ptr room, h.lobby.Holds ptr room →
    ∀ s ∈ room.gameSession, ∀ c p,
      s.connectionMap.find c = some p →
        p = c ∧ c ∈ room.players ∧ h.Online c

theorem Run.anchored
    {trace : List (Handshake × Event)}
    (run : Run parse pbkdf2 users trace h) :
    h.Anchored := by
  rcases Run.guarded run with ⟨hTidy, hOnline⟩
  have hSeats : ∀ ptr room, h.lobby.Holds ptr room →
      ∀ c ∈ room.players, h.Online c := fun ptr room hHolds c hc =>
    hOnline c ptr ((hTidy.find_iff hHolds c).mpr hc)
  refine ⟨?_, ?_, ?_, ?_, ?_, ?_⟩
  · intro connections hSome c hc
    rcases Run.listed run with ⟨others, hOthers, _, hIff⟩
    rw [hOthers] at hSome
    cases hSome
    exact (hIff c).mp hc
  · intro ptr hPtr
    rcases hTidy.kept ptr hPtr with ⟨room, hAt, _⟩
    exact ⟨room, hPtr, hAt⟩
  · intro c ptr hFind
    rcases (hTidy.placed c ptr).mp hFind with
      ⟨room, hHolds, _⟩
    exact ⟨hOnline c ptr hFind, hHolds.1⟩
  · intro ptr room hHolds
    exact ⟨hSeats ptr room hHolds _ (hTidy.of_holds hHolds).2,
      hSeats ptr room hHolds⟩
  · intro ptr room hHolds s hs
    rcases ((hTidy.of_holds hHolds).1.served s hs).played with
      ⟨table, trace, played⟩
    exact played.safe.owned
  · intro ptr room hHolds s hs c p hFind
    have hServes := (hTidy.of_holds hHolds).1.served s hs
    rcases hServes.played with ⟨table, trace, played⟩
    have hOwned : s.Owned := played.safe.owned
    have hMem : p ∈ room.players := by
      rw [← hServes.players_eq]
      exact hOwned.connections c p hFind
    -- `p` is the player of the connection `p` as well.
    have hSame : c = p :=
      hOwned.injective c p p hFind (hServes.mapped p hMem)
    rw [hSame]
    exact ⟨rfl, hMem, hSeats ptr room hHolds p hMem⟩

------------------------------------------------------------
-- A Table of Two
------------------------------------------------------------

/- The JSON of a request to join the first room. -/
def joinData : Json :=
  .object
    [("data", .object [("room_id", .unsigned 1)]),
      ("type", .string "join_room")]

/- The packet of that request. -/
def joinBody : List UInt8 :=
  String.toByteArray
      ("\x7b\"type\":\"join_room\",\"data\":" ++
        "\x7b\"room_id\":1\x7d\x7d")
    |>.toList

/- The parser on the packets of two who sit down to play. -/
def pairParser : Parser := fun body =>
  if body = joinBody then
    .value joinData
  else if body = loginBody "Bobby" then
    .value (loginData "Bobby")
  else
    tableParser body

/- The accounts of Alice and of Bobby. -/
def pairUsers : UserRepository where
  users := aliceUsers.users ++
    aliceUsers.users.map fun user =>
      { user with username := "Bobby" }

/- They log in and fill a room, and their game begins. -/
def pairSitsDown : List Event :=
  [login 0 "Alice", login 1 "Bobby",
    .message 0 createBody {} none,
    .message 1 joinBody
      { starting := [.unshuffled, .unshuffled] } none]

theorem pairSitsDown_anchored :
    ∃ trace h,
      Run pairParser loginPbkdf2 pairUsers trace h ∧
        (∃ room, h.lobby.Holds 0 room ∧
          ∃ s ∈ room.gameSession, s.players = [0, 1]) ∧
        h.Anchored := by
  have hPasses : Transition.passes
      (step pairParser loginPbkdf2) (opening pairUsers)
      pairSitsDown
      (fun _ h => decide (0 ∈ h.lobby.rooms) &&
        h.lobby.heap[0]?.any fun room =>
          room.gameSession.any fun s =>
            decide (s.players = [0, 1])) = true := by
    decide +kernel
  rcases Transition.exists_run_of_passes hPasses with
    ⟨trace, h, run, hTest⟩
  rw [Bool.and_eq_true, decide_eq_true_eq,
    Option.any_eq_true] at hTest
  rcases hTest with ⟨hListed, room, hAt, hSession⟩
  rw [Option.any_eq_true] at hSession
  rcases hSession with ⟨s, hs, hPlayers⟩
  exact ⟨trace, h, run,
    ⟨room, ⟨hListed, hAt⟩, s, hs, of_decide_eq_true hPlayers⟩,
    Run.anchored run⟩

end Handshake

end Server

end Poker

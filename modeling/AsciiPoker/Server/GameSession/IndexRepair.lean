import AsciiPoker.Server.GameSession.Progress
import AsciiPoker.Server.GameSession.Turns

/-
  The two indices of a table after a departure.

  An index should stay with the player it points to, and go
  to the player clockwise next to him if he is the one who
  leaves.  `fix_indices_after_removal` sees to this, except
  that it first sends an index beyond the end back to seat
  zero: the index of the last seat is beyond the end as soon
  as any seat is gone.

  Main declarations:
    * `heir`, `Overruns`
    * `GameSession.Repaired`
    * `GameSession.vacate_repaired_iff`
-/

namespace Poker

namespace Server

open Protocol

------------------------------------------------------------
-- One Index
------------------------------------------------------------

/-
  Whom an index should point to once seat `removed` is gone:
  the player it pointed to, or the one clockwise next to him
  if that seat was his.
-/
def heir
    (players : List PlayerId)
    (index removed : Nat) : Option PlayerId :=
  if index = removed then
    players[(index + 1) % players.length]?
  else
    players[index]?

/- The last of three or more seats, and an earlier one goes. -/
def Overruns
    (seats index removed : Nat) : Prop :=
  3 ≤ seats ∧ index + 1 = seats ∧ removed < index

namespace GameSession

variable {players : List PlayerId}
variable {index removed : Nat}

/- An index that overruns ends up with the first player. -/
theorem fixIndex_of_overruns
    (hOver : Overruns players.length index removed) :
    fixIndex index removed (players.length - 1) = 0 := by
  rcases hOver with ⟨_, hLast, _⟩
  unfold fixIndex
  rw [if_pos (by omega)]

/-
  The index of a leaver goes to the player next to him, and
  from the last seat on to the first.
-/
theorem getElem?_fixIndex_self
    (hTwo : 2 ≤ players.length)
    (hIndex : index < players.length) :
    (players.eraseIdx index)[fixIndex index index
      (players.length - 1)]? =
        players[(index + 1) % players.length]? := by
  by_cases hLast : index + 1 = players.length
  · have hBack : fixIndex index index
        (players.length - 1) = 0 := by
      unfold fixIndex
      rw [if_pos (by omega)]
    rw [hBack, hLast, Nat.mod_self, List.getElem?_eraseIdx,
      if_pos (by omega)]
  · have hStay : fixIndex index index
        (players.length - 1) = index := by
      unfold fixIndex
      rw [if_neg (by omega), if_neg (Nat.lt_irrefl index)]
    rw [hStay, Nat.mod_eq_of_lt (by omega),
      List.getElem?_eraseIdx, if_neg (Nat.lt_irrefl index)]

/- With two seats, whoever is left has every index. -/
theorem getElem?_fixIndex_two
    (hTwo : players.length = 2)
    (hIndex : index < players.length)
    (hBefore : removed < index) :
    (players.eraseIdx removed)[fixIndex index removed
      (players.length - 1)]? = players[index]? := by
  have hOne : index = 1 := by omega
  have hZero : removed = 0 := by omega
  subst hOne hZero
  have hBack : fixIndex 1 0 (players.length - 1) = 0 := by
    unfold fixIndex
    rw [if_pos (by omega)]
  rw [hBack, List.getElem?_eraseIdx,
    if_neg (Nat.lt_irrefl 0)]

/-
  An index is repaired unless it overruns.  Then the first
  of the players who are left has it, and not the last.
-/
theorem getElem?_fixIndex_iff
    (hNodup : players.Nodup)
    (hTwo : 2 ≤ players.length)
    (hSeat : removed < players.length)
    (hIndex : index < players.length) :
    (players.eraseIdx removed)[fixIndex index removed
      (players.length - 1)]? = heir players index removed ↔
        ¬ Overruns players.length index removed := by
  constructor
  · intro hHeir hOver
    rw [fixIndex_of_overruns hOver, List.getElem?_eraseIdx]
      at hHeir
    rcases hOver with ⟨hThree, hLast, hBefore⟩
    have hSame : heir players index removed =
        players[index]? := by
      unfold heir
      rw [if_neg (by omega)]
    rw [hSame] at hHeir
    have hOther := List.nodup_iff_getElem?_ne_getElem?.mp
      hNodup
    split at hHeir
    · exact hOther 0 index (by omega) hIndex hHeir
    · exact hOther 1 index (by omega) hIndex hHeir
  · intro hFits
    unfold heir
    by_cases hLeaver : index = removed
    · rw [if_pos hLeaver, ← hLeaver]
      exact getElem?_fixIndex_self hTwo hIndex
    · rw [if_neg hLeaver]
      by_cases hShift :
          removed < index ∧ index + 1 = players.length
      · have hFew : players.length = 2 := by
          by_contra hMany
          exact hFits ⟨by omega, hShift.2, hShift.1⟩
        exact getElem?_fixIndex_two hFew hIndex hShift.1
      · have hAt : players[index]? = some players[index] :=
          List.getElem?_eq_getElem hIndex
        have hFixed := getElem?_fixIndex hAt hLeaver hSeat
          hShift
        rw [List.length_eraseIdx_of_lt hSeat] at hFixed
        rw [hFixed, hAt]

end GameSession

------------------------------------------------------------
-- Both Indices
------------------------------------------------------------

/-
  After a departure both indices are seat numbers and point
  to whom they should.
-/
structure GameSession.Repaired
    (s : GameSession)
    (leaver : Leaver) : Prop where
  dealer_lt : (s.vacate leaver).dealerIndex <
    (s.vacate leaver).players.length
  dealer : (s.vacate leaver).players[
      (s.vacate leaver).dealerIndex]? =
    heir s.players s.dealerIndex leaver.removedIndex
  current_lt : (s.vacate leaver).currentPlayerIndex <
    (s.vacate leaver).players.length
  current : (s.vacate leaver).players[
      (s.vacate leaver).currentPlayerIndex]? =
    heir s.players s.currentPlayerIndex leaver.removedIndex

/-
  The indices are repaired exactly when none of them is that
  of the last of three or more seats while an earlier one is
  given up.
-/
theorem GameSession.vacate_repaired_iff
    {s : GameSession}
    {leaver : Leaver}
    (hNodup : s.players.Nodup)
    (hTwo : 2 ≤ s.players.length)
    (hSeat : leaver.removedIndex < s.players.length)
    (hDealer : s.dealerIndex < s.players.length)
    (hCurrent : s.currentPlayerIndex < s.players.length) :
    s.Repaired leaver ↔
      ¬ Overruns s.players.length s.dealerIndex
          leaver.removedIndex ∧
        ¬ Overruns s.players.length s.currentPlayerIndex
          leaver.removedIndex := by
  have hLength := List.length_eraseIdx_of_lt hSeat
  have hLeft : 0 < s.players.length - 1 := by omega
  rw [← getElem?_fixIndex_iff hNodup hTwo hSeat hDealer,
    ← getElem?_fixIndex_iff hNodup hTwo hSeat hCurrent]
  rcases s.vacate_eq leaver with ⟨_, _, hEq, _⟩
  constructor
  · rintro ⟨_, hHeir, _, hNext⟩
    rw [hEq] at hHeir hNext
    dsimp only at hHeir hNext
    rw [hLength] at hHeir hNext
    exact ⟨hHeir, hNext⟩
  · rintro ⟨hHeir, hNext⟩
    refine ⟨?_, ?_, ?_, ?_⟩
    all_goals
      rw [hEq]
      dsimp only
      rw [hLength]
    · exact fixIndex_lt hLeft
    · exact hHeir
    · exact fixIndex_lt hLeft
    · exact hNext

/- Player 0 leaves, who has the first seat and no turn. -/
def Leaver.first : Leaver :=
  ⟨0, 0, 0, false⟩

/- Player 0 calls the blind and leaves on player 1's turn. -/
def Event.leavesBehindTurn : List Event :=
  proceeds 2 ++ [act 0 .call] ++ proceeds 1 ++
    [.removePlayer 0]

/- The dealer is gone, and player 1 has the button. -/
theorem Table.leavesBehindTurn_repaired :
    ∃ trace c,
      (numbered [1000, 1000, 1000] (by decide)).Run
        trace c ∧
      c.pending = .resume (.finishRemoval .first) ∧
      c.session.Repaired .first := by
  rcases exists_run
      (numbered [1000, 1000, 1000] (by decide))
      Event.leavesBehindTurn
      (fun _ c => decide
        (c.pending = .resume (.finishRemoval .first) ∧
          c.session.players = [0, 1, 2] ∧
          c.session.dealerIndex = 0 ∧
          c.session.currentPlayerIndex = 1))
      (by decide +kernel) with
    ⟨trace, c, run, hTest⟩
  rcases of_decide_eq_true hTest with
    ⟨hLeaving, hPlayers, hDealer, hCurrent⟩
  refine ⟨trace, c, run, hLeaving, ?_⟩
  refine (GameSession.vacate_repaired_iff ?_ ?_ ?_ ?_ ?_).mpr
    ⟨?_, ?_⟩
  all_goals
    simp [hPlayers, hDealer, hCurrent, Leaver.first, Overruns]

/- Player 1 calls as well, and player 0 leaves after that. -/
def Event.leavesBeforeLast : List Event :=
  proceeds 2 ++ [act 0 .call] ++ proceeds 1 ++
    [act 1 .call] ++ proceeds 1 ++ [.removePlayer 0]

/- It was the turn of player 2, and player 1 gets it. -/
theorem Table.leavesBeforeLast_misplaced :
    ∃ trace c,
      (numbered [1000, 1000, 1000] (by decide)).Run
        trace c ∧
      c.pending = .resume (.finishRemoval .first) ∧
      c.session.players[c.session.currentPlayerIndex]? =
        some 2 ∧
      (c.session.vacate .first).players[
        (c.session.vacate .first).currentPlayerIndex]? =
          some 1 ∧
      ¬ c.session.Repaired .first := by
  rcases exists_run
      (numbered [1000, 1000, 1000] (by decide))
      Event.leavesBeforeLast
      (fun _ c => decide
        (c.pending = .resume (.finishRemoval .first) ∧
          c.session.currentPlayerIndex = 2 ∧
          c.session.players[2]? = some 2 ∧
          (c.session.vacate .first).players[
            (c.session.vacate .first).currentPlayerIndex]? =
              some 1))
      (by decide +kernel) with
    ⟨trace, c, run, hTest⟩
  rcases of_decide_eq_true hTest with
    ⟨hLeaving, hCurrent, hTurn, hNext⟩
  refine ⟨trace, c, run, hLeaving, ?_, hNext, ?_⟩
  · rw [hCurrent]
    exact hTurn
  · rintro ⟨_, _, _, hHeir⟩
    have hTwo : heir c.session.players
        c.session.currentPlayerIndex
        Leaver.first.removedIndex = some 2 := by
      rw [hCurrent]
      exact hTurn
    rw [hNext, hTwo] at hHeir
    cases hHeir

end Server

end Poker

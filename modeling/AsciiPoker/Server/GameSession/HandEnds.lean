import AsciiPoker.Library.Termination
import AsciiPoker.Server.GameSession.DeckSize
import AsciiPoker.Server.GameSession.Effort
import AsciiPoker.Server.GameSession.Turns

/-
  Every hand comes to an end.

  Accepted actions and the calls they lead to lower the
  effort that is left, so they come to an award, however the
  players act; unless the deck runs out on the way.

  Main declarations:
    * `Config.Accepts`, `Config.Plays`, `Config.InHand`
    * `Step.effort_lt`
    * `Config.Endless`, `Config.ReachesAward`
    * `Table.Run.reachesAward_iff`
-/

namespace Poker

namespace Server

open Protocol

------------------------------------------------------------
-- Steps Within a Hand
------------------------------------------------------------

/- The player on turn asks for what the rules let him do. -/
def Config.Accepts
    (c : Config) : Event → Prop
| .applyAction connection action amount =>
    ∃ p t,
      c.session.getPlayer connection = some p ∧
      c.session.players[c.session.currentPlayerIndex]? =
        some p ∧
      c.session.performAction p action amount = .ok t
| .proceed _ => False
| .removePlayer _ => False

/- An accepted action, or a call that was left to run. -/
def Config.Plays
    (c d : Config) : Prop :=
  ∃ e, ((∃ shuffle, e = .proceed shuffle) ∨ c.Accepts e) ∧
    c.step e = .ok d

/- A hand that is being played and not yet awarded. -/
def Config.InHand
    (c : Config) : Prop :=
  match c.pending with
  | .done => c.session.InProgress
  | .askCurrentPlayer => c.session.InProgress
  | .nextPhase => c.session.InProgress
  | .doShowdown => c.session.InProgress
  | .handleSingleWinner => True
  | .awardAllPots _ => True
  | .start => False
  | .resume _ => False

/- Closing a round or asking goes on with the hand. -/
theorem GameSession.Closes.inHand
    {s : GameSession}
    {pending : Pending}
    (hCloses : s.Closes pending)
    (hProgress : s.InProgress) :
    Config.InHand ⟨s, pending⟩ := by
  rcases hCloses with ⟨_, rfl⟩ | ⟨_, rfl⟩
  · exact hProgress
  · exact hProgress

/- A hand that goes on after an action is in progress. -/
theorem GameSession.Acts.inProgress
    {s t u : GameSession}
    {p : PlayerId}
    {action : Action}
    {amount : Option UInt32}
    (hActs : s.Acts p action amount t)
    (hQuiet : (t.recordPlayerAction p action).Quiet u)
    (hNodup : s.players.Nodup)
    (hProgress : s.InProgress)
    (hMany : u.countActivePlayers ≠ 1) :
    u.InProgress := by
  have hCount := hActs.countActivePlayers hNodup
  rcases hQuiet with ⟨_, _, rfl, _⟩
  refine ⟨?_, ?_⟩
  · change t.phase ≠ .showdown
    rw [hActs.frame.2.2.1]
    exact hProgress.1
  · change t.countActivePlayers ≠ 1 at hMany
    change 2 ≤ t.countActivePlayers
    have hTwo := hProgress.2
    omega

/- What is not a departure goes on with the hand. -/
theorem Config.InHand.step
    {c d : Config}
    {e : Event}
    (hHand : c.InHand)
    (hOpen : c.pending.isAward = false)
    (hNodup : c.session.players.Nodup)
    (hStays : ∀ connection, e ≠ .removePlayer connection)
    (hStep : Step c e d) :
    d.InHand := by
  cases hStep with
  | started hDealt hPosted hQuiet => exact absurd hHand id
  | asked hAt hAct => exact hHand
  | passedOver hAt hAct hCloses => exact hCloses.inHand hHand
  | wonByFold hOne => exact trivial
  | street hMany hPhase hDeal hQuiet =>
      rcases hQuiet with ⟨_, _, rfl, _⟩
      refine ⟨?_, hHand.2⟩
      simp only [List.mem_cons, Prod.mk.injEq,
        List.not_mem_nil, or_false] at hPhase
      rcases hPhase with
        ⟨_, _, rfl⟩ | ⟨_, _, rfl⟩ | ⟨_, _, rfl⟩
      · simp [GameSession.openStreet]
      · simp [GameSession.openStreet]
      · simp [GameSession.openStreet]
  | riverClosed hMany hPhase => exact hHand
  | pastShowdown hMany hPhase => exact absurd hPhase hHand.1
  | shownDown hQuiet hPending =>
      have hTwo := hHand.2
      dsimp only at hTwo
      rcases hPending with ⟨hZero, _⟩ | ⟨hOne, _⟩ | ⟨_, rfl⟩
      · omega
      · omega
      · exact trivial
  | singleWinner => exact trivial
  | awardedNothing hEmpty => cases hOpen
  | awarded hFull hPaid hQuiet => cases hOpen
  | handOver hEnough hChips => exact absurd hHand id
  | gameOver hOver => exact absurd hHand id
  | leftFew hFew hErased => exact absurd hHand id
  | leftOneActive hEnough hOne => exact absurd hHand id
  | leftClosing hEnough hMany hCloses => exact absurd hHand id
  | leftWaiting hEnough hMany hOther hOpen hQuiet =>
      exact absurd hHand id
  | unmapped hEnough hNone => exact hHand
  | rejected hEnough hPlayer => exact hHand
  | wonByAction hEnough hPlayer hAt hActs hQuiet hOne =>
      exact trivial
  | acted hEnough hPlayer hAt hActs hQuiet hMany hCloses =>
      have hHere := hActs.inProgress hQuiet hNodup hHand hMany
      exact hCloses.inHand hHere
  | notSeated hEnough hNone => exact absurd rfl (hStays _)
  | leaving hEnough hPlayer hAt hCurrent hWas hPending =>
      exact absurd rfl (hStays _)

------------------------------------------------------------
-- The Effort Falls
------------------------------------------------------------

/- A hand in progress has a street left. -/
theorem streetsFrom_pos
    {phase : GamePhase}
    (hOpen : phase ≠ .showdown) :
    0 < streetsFrom phase := by
  cases phase with
  | preFlop => simp [streetsFrom]
  | flop => simp [streetsFrom]
  | turn => simp [streetsFrom]
  | river => simp [streetsFrom]
  | showdown => exact absurd rfl hOpen

namespace GameSession

variable {s t u : GameSession}
variable {p : PlayerId}
variable {action : Action}
variable {amount : Option UInt32}
variable {pending : Pending}

/- The turn is passed over somebody who cannot act. -/
theorem effort_lt_of_passedOver
    (hAt : s.players[s.currentPlayerIndex]? = some p)
    (hAct : ¬ s.canPlayerAct p)
    (hProgress : s.InProgress)
    (hCloses : s.advanceToNextPlayer.Closes pending) :
    Config.effort ⟨s.advanceToNextPlayer, pending⟩ <
      Config.effort ⟨s, .askCurrentPlayer⟩ := by
  rw [Config.effort_lt_iff]
  rcases hCloses with ⟨hComplete, rfl⟩ | ⟨hOpen, rfl⟩
  · have hNobody : s.toAct = ∅ :=
      toAct_of_complete (s := s.advanceToNextPlayer)
        hProgress.2 hComplete
    have hBefore := seatsToWait_of_nobody hNobody
    have hAfter := seatsToWait_of_nobody
      (s := s.advanceToNextPlayer) hNobody
    refine Or.inr ⟨rfl, Or.inr ⟨rfl, Or.inr ⟨rfl, Or.inr
      ⟨?_, by simp [Pending.rank]⟩⟩⟩⟩
    exact hAfter.trans hBefore.symm
  · have hSome := toAct_of_open hOpen
    have hLess := seatsToWait_advance
      (List.getElem?_eq_some_iff.mp hAt).1
      (by
        rintro ⟨q, hq, hToAct⟩
        rw [hAt] at hq
        cases hq
        exact hAct hToAct.1)
      hSome
    exact Or.inr ⟨rfl, Or.inr ⟨rfl, Or.inr ⟨rfl,
      Or.inl hLess⟩⟩⟩

/- An action that leaves one player active. -/
theorem effort_lt_of_won
    (hProgress : s.InProgress) :
    Config.effort ⟨u, .handleSingleWinner⟩ <
      Config.effort ⟨s, .done⟩ := by
  rw [Config.effort_lt_iff]
  exact Or.inl (streetsFrom_pos hProgress.1)

/- An action after which the betting round goes on or ends. -/
theorem effort_lt_of_acted
    (hAt : s.players[s.currentPlayerIndex]? = some p)
    (hActs : s.Acts p action amount t)
    (hQuiet : (t.recordPlayerAction p action).Quiet u)
    (hNodup : s.players.Nodup)
    (hDealtIn : ∀ q ∈ s.players, (s.chips.find q).isSome)
    (hTwo : 2 ≤ u.countActivePlayers)
    (hCloses : u.advanceToNextPlayer.Closes pending) :
    Config.effort ⟨u.advanceToNextPlayer, pending⟩ <
      Config.effort ⟨s, .done⟩ := by
  have hSeated : p ∈ s.players := List.mem_of_getElem? hAt
  have hChips := hActs.chipsInFront_le hNodup hDealtIn hSeated
  have hPlayers : u.players = s.players := by
    rcases hQuiet with ⟨_, _, rfl, _⟩
    exact hActs.frame.1
  have hStreets : Config.streetsLeft
      ⟨u.advanceToNextPlayer, pending⟩ =
        Config.streetsLeft ⟨s, .done⟩ := by
    have hPhase : u.phase = s.phase := by
      rcases hQuiet with ⟨_, _, rfl, _⟩
      exact hActs.frame.2.2.1
    rcases hCloses with ⟨_, rfl⟩ | ⟨_, rfl⟩
    · exact congrArg streetsFrom hPhase
    · exact congrArg streetsFrom hPhase
  have hMoney : u.advanceToNextPlayer.chipsInFront =
      t.chipsInFront := by
    rcases hQuiet with ⟨_, _, rfl, _⟩
    rfl
  rw [Config.effort_lt_iff]
  refine Or.inr ⟨hStreets, ?_⟩
  dsimp only
  rw [hMoney]
  by_cases hRaise : action = .raise
  · exact Or.inl (hChips.2 hRaise)
  by_cases hSpent : t.chipsInFront < s.chipsInFront
  · exact Or.inl hSpent
  refine Or.inr ⟨by omega, ?_⟩
  have hToAct : u.toAct = s.toAct.erase p := by
    have hActed := hActs.toAct_eq hRaise
    rcases hQuiet with ⟨_, _, rfl, _⟩
    exact hActed
  have hAdvance : u.advanceToNextPlayer.toAct = u.toAct := rfl
  rw [hAdvance, hToAct]
  by_cases hWaited : p ∈ s.toAct
  · exact Or.inl (Finset.card_erase_lt_of_mem hWaited)
  -- The round waited for others only, and still does.
  have hSame : u.toAct = s.toAct := by
    rw [hToAct, Finset.erase_eq_of_notMem hWaited]
  rw [← hToAct, hSame]
  refine Or.inr ⟨rfl, ?_⟩
  have hIndex : u.currentPlayerIndex = s.currentPlayerIndex := by
    rcases hQuiet with ⟨_, _, rfl, _⟩
    exact hActs.currentPlayerIndex_eq
  have hSeatsToWait : u.seatsToWait = s.seatsToWait := by
    have hAtIff : ∀ i, u.ToActAt i ↔ s.ToActAt i := by
      intro i
      constructor
      · rintro ⟨q, hq, hThere⟩
        rw [hPlayers] at hq
        have hMem : q ∈ s.toAct := by
          rw [← hSame]
          exact mem_toAct.mpr ⟨by
            rw [hPlayers]
            exact List.mem_of_getElem? hq, hThere⟩
        exact ⟨q, hq, (mem_toAct.mp hMem).2⟩
      · rintro ⟨q, hq, hThere⟩
        have hMem : q ∈ u.toAct := by
          rw [hSame]
          exact mem_toAct.mpr
            ⟨List.mem_of_getElem? hq, hThere⟩
        exact ⟨q, by rw [hPlayers]; exact hq,
          (mem_toAct.mp hMem).2⟩
    unfold seatsToWait Cyclic.wait
    simp only [hPlayers, hIndex, hAtIff]
  rcases hCloses with ⟨hComplete, rfl⟩ | ⟨hOpen, rfl⟩
  · have hNobody : u.toAct = ∅ :=
      toAct_of_complete (s := u.advanceToNextPlayer) hTwo
        hComplete
    have hBefore := seatsToWait_of_nobody hNobody
    have hAfter := seatsToWait_of_nobody
      (s := u.advanceToNextPlayer) hNobody
    refine Or.inr ⟨?_, by simp [Pending.rank]⟩
    rw [← hSeatsToWait]
    exact hAfter.trans hBefore.symm
  · have hLess := seatsToWait_advance (s := u)
      (by
        rw [hIndex, hPlayers]
        exact (List.getElem?_eq_some_iff.mp hAt).1)
      (by
        rintro ⟨q, hq, hThere⟩
        rw [hIndex, hPlayers, hAt] at hq
        cases hq
        have hMem : p ∈ u.toAct := mem_toAct.mpr
          ⟨by rw [hPlayers]; exact hSeated, hThere⟩
        rw [hSame] at hMem
        exact hWaited hMem)
      (toAct_of_open (s := u.advanceToNextPlayer) hOpen)
    rw [← hSeatsToWait]
    exact Or.inl hLess

end GameSession

/- What is not a departure takes no effort back. -/
theorem Step.effort_lt
    {c d : Config}
    {e : Event}
    (hStep : Step c e d)
    (hHand : c.InHand)
    (hOpen : c.pending.isAward = false)
    (hSeated : c.Seated)
    (hStays : ∀ connection, e ≠ .removePlayer connection) :
    d.effort < c.effort ∨
      (d.effort = c.effort ∧ c.pending = .done) := by
  have hNodup := hSeated.nodup
  cases hStep with
  | started hDealt hPosted hQuiet => exact absurd hHand id
  | asked hAt hAct =>
      rw [Config.effort_lt_iff]
      exact Or.inl (Or.inr ⟨rfl, Or.inr ⟨rfl, Or.inr ⟨rfl,
        Or.inr ⟨rfl, by simp [Pending.rank]⟩⟩⟩⟩)
  | passedOver hAt hAct hCloses =>
      exact Or.inl (GameSession.effort_lt_of_passedOver hAt
        hAct hHand hCloses)
  | wonByFold hOne =>
      rw [Config.effort_lt_iff]
      exact Or.inl (Or.inl (streetsFrom_pos hHand.1))
  | @street s t count phase dealt rest shuffle hMany hPhase
      hDeal hQuiet =>
      rcases hQuiet with ⟨_, _, rfl, _⟩
      rw [Config.effort_lt_iff]
      refine Or.inl (Or.inl ?_)
      change streetsFrom phase < streetsFrom s.phase
      simp only [List.mem_cons, Prod.mk.injEq,
        List.not_mem_nil, or_false] at hPhase
      rcases hPhase with
        ⟨h, _, rfl⟩ | ⟨h, _, rfl⟩ | ⟨h, _, rfl⟩
      · simp [h, streetsFrom]
      · simp [h, streetsFrom]
      · simp [h, streetsFrom]
  | riverClosed hMany hPhase =>
      rw [Config.effort_lt_iff]
      exact Or.inl (Or.inl (streetsFrom_pos hHand.1))
  | pastShowdown hMany hPhase => exact absurd hPhase hHand.1
  | shownDown hQuiet hPending =>
      have hTwo := hHand.2
      dsimp only at hTwo
      rcases hQuiet with ⟨_, _, rfl, _⟩
      rcases hPending with ⟨hZero, _⟩ | ⟨hOne, _⟩ | ⟨_, rfl⟩
      · omega
      · omega
      · rw [Config.effort_lt_iff]
        exact Or.inl (Or.inr ⟨rfl, Or.inr ⟨rfl, Or.inr ⟨rfl,
          Or.inr ⟨rfl, by simp [Pending.rank]⟩⟩⟩⟩)
  | singleWinner =>
      rw [Config.effort_lt_iff]
      exact Or.inl (Or.inr ⟨rfl, Or.inr ⟨rfl, Or.inr ⟨rfl,
        Or.inr ⟨rfl, by simp [Pending.rank]⟩⟩⟩⟩)
  | awardedNothing hEmpty => cases hOpen
  | awarded hFull hPaid hQuiet => cases hOpen
  | handOver hEnough hChips => exact absurd hHand id
  | gameOver hOver => exact absurd hHand id
  | leftFew hFew hErased => exact absurd hHand id
  | leftOneActive hEnough hOne => exact absurd hHand id
  | leftClosing hEnough hMany hCloses => exact absurd hHand id
  | leftWaiting hEnough hMany hOther hOpen hQuiet =>
      exact absurd hHand id
  | unmapped hEnough hNone => exact Or.inr ⟨rfl, rfl⟩
  | rejected hEnough hPlayer => exact Or.inr ⟨rfl, rfl⟩
  | wonByAction hEnough hPlayer hAt hActs hQuiet hOne =>
      exact Or.inl (GameSession.effort_lt_of_won hHand)
  | acted hEnough hPlayer hAt hActs hQuiet hMany hCloses =>
      have hGoesOn := hActs.inProgress hQuiet hNodup hHand
        hMany
      exact Or.inl (GameSession.effort_lt_of_acted hAt hActs
        hQuiet hNodup (hSeated.dealtIn (by simp)).2
        hGoesOn.2 hCloses)
  | notSeated hEnough hNone => exact absurd rfl (hStays _)
  | leaving hEnough hPlayer hAt hCurrent hWas hPending =>
      exact absurd rfl (hStays _)

/- What an accepted action leads to. -/
theorem Config.Accepts.outcome
    {s : GameSession}
    {d : Config}
    {e : Event}
    (hAccepts : Config.Accepts ⟨s, .done⟩ e)
    (hOk : Config.step ⟨s, .done⟩ e = .ok d) :
    ∃ p action amount t u,
      s.players[s.currentPlayerIndex]? = some p ∧
      s.Acts p action amount t ∧
      (t.recordPlayerAction p action).Quiet u ∧
      ((u.countActivePlayers = 1 ∧
          d = ⟨u, .handleSingleWinner⟩) ∨
        (u.countActivePlayers ≠ 1 ∧ ∃ pending,
          u.advanceToNextPlayer.Closes pending ∧
          d = ⟨u.advanceToNextPlayer, pending⟩)) := by
  cases e with
  | proceed shuffle => exact absurd hAccepts id
  | removePlayer connection => exact absurd hAccepts id
  | applyAction connection action amount =>
      rcases hAccepts with ⟨p, t, hPlayer, hAt, hPerformed⟩
      rcases d with ⟨v, pending⟩
      simp only [Config.step] at hOk
      split at hOk
      · rw [Config.ofResult_eq_ok] at hOk
        unfold GameSession.applyAction at hOk
        have hTurn : s.playerAt s.currentPlayerIndex = .ok p :=
          playerAt_eq_ok.mpr hAt
        simp only at hPlayer hPerformed
        rw [hPlayer] at hOk
        simp only [hTurn, Except.ok_bind, hPerformed, ne_eq,
          not_true_eq_false, if_false] at hOk
        rcases afterAction_of_ok hOk with
          ⟨u, hQuiet, ⟨hOne, rfl, rfl⟩ |
            ⟨hMany, rfl, hCloses⟩⟩
        · exact ⟨p, action, amount, t, v, hAt,
            acts_of_ok hPerformed, hQuiet, Or.inl ⟨hOne, rfl⟩⟩
        · exact ⟨p, action, amount, t, u, hAt,
            acts_of_ok hPerformed, hQuiet,
            Or.inr ⟨hMany, pending, hCloses, rfl⟩⟩
      · cases hOk

/- Actions are only accepted between two calls. -/
theorem Config.pending_of_accepts
    {c d : Config}
    {e : Event}
    (hAccepts : c.Accepts e)
    (hOk : c.step e = .ok d) :
    c.pending = .done := by
  cases e with
  | proceed shuffle => exact absurd hAccepts id
  | removePlayer connection => exact absurd hAccepts id
  | applyAction connection action amount =>
      simp only [Config.step] at hOk
      split at hOk
      next hIdle => exact hIdle.1
      next => cases hOk

/- An accepted action takes effort. -/
theorem Config.Accepts.effort_lt
    {c d : Config}
    {e : Event}
    (hAccepts : c.Accepts e)
    (hOk : c.step e = .ok d)
    (hHand : c.InHand)
    (hSeated : c.Seated)
    (hDone : c.pending = .done) :
    d.effort < c.effort := by
  rcases c with ⟨s, pending⟩
  subst hDone
  have hNodup : s.players.Nodup := hSeated.nodup
  rcases hAccepts.outcome hOk with
    ⟨p, action, amount, t, u, hAt, hActs, hQuiet,
      ⟨hOne, rfl⟩ | ⟨hMany, pending, hCloses, rfl⟩⟩
  · exact GameSession.effort_lt_of_won hHand
  · have hGoesOn := hActs.inProgress hQuiet hNodup hHand hMany
    exact GameSession.effort_lt_of_acted hAt hActs hQuiet
      hNodup (hSeated.dealtIn (by simp)).2 hGoesOn.2 hCloses

/- Whatever is played in a hand takes effort. -/
theorem Config.Plays.effort_lt
    {c d : Config}
    (hPlays : c.Plays d)
    (hHand : c.InHand)
    (hOpen : c.pending.isAward = false)
    (hSeated : c.Seated) :
    d.effort < c.effort ∧ d.InHand ∧ d.Seated := by
  rcases hPlays with ⟨e, hKind, hOk⟩
  have hStays : ∀ connection, e ≠ .removePlayer connection := by
    rintro connection rfl
    rcases hKind with ⟨shuffle, hEq⟩ | hAccepts
    · cases hEq
    · exact absurd hAccepts id
  have hStep := step_of_ok hOk
  refine ⟨?_, hHand.step hOpen hSeated.nodup hStays hStep,
    hSeated.step hStep⟩
  rcases hStep.effort_lt hHand hOpen hSeated hStays with
    hLess | ⟨_, hDone⟩
  · exact hLess
  · rcases hKind with ⟨shuffle, rfl⟩ | hAccepts
    · rcases c with ⟨s, pending⟩
      subst hDone
      cases hOk
    · exact hAccepts.effort_lt hOk hHand hSeated hDone

------------------------------------------------------------
-- Somebody Can Always Play
------------------------------------------------------------

/- Every player can be reached over a connection. -/
def Config.Mapped
    (c : Config) : Prop :=
  ∀ p ∈ c.placesAhead.1, ∃ connection,
    c.placesAhead.2.find connection = some p

theorem Table.opening_mapped
    (table : Table) :
    table.opening.Mapped := by
  intro p hp
  change p ∈ table.roster.seats.map Prod.snd at hp
  rcases List.mem_map.mp hp with ⟨⟨connection, q⟩, hSeat, rfl⟩
  exact ⟨connection, KeyMap.find_foldl_set_of_mem
    table.roster.connections_nodup hSeat .empty⟩

/- A departure takes a player and his own connection. -/
theorem Config.Mapped.step
    {c d : Config}
    {e : Event}
    (hMapped : c.Mapped)
    (hSeated : c.Seated)
    (hStep : Step c e d) :
    d.Mapped := by
  by_cases hStays : ∀ connection, e ≠ .removePlayer connection
  · unfold Config.Mapped
    rw [hStep.placesAhead_eq hStays]
    exact hMapped
  · cases hStep with
    | notSeated hEnough hNone => exact hMapped
    | @leaving s leaver current pending hEnough hPlayer hAt
        hCurrent hWas hPending =>
        have hMem : leaver.player ∈ s.players :=
          List.mem_of_getElem? hAt
        have hNodup : s.players.Nodup := hSeated.nodup
        have hPlaces := (Step.leaving hEnough hPlayer hAt
          hCurrent hWas hPending).placesAhead_removePlayer
            hNodup hPlayer hMem
        unfold Config.Mapped
        rw [hPlaces]
        intro p hp
        rcases (hNodup.mem_erase_iff).mp hp with ⟨hNe, hOld⟩
        rcases hMapped p hOld with ⟨connection, hFind⟩
        refine ⟨connection, ?_⟩
        dsimp only
        have hOther : connection ≠ leaver.connection := by
          rintro rfl
          unfold GameSession.getPlayer at hPlayer
          have hSame := hPlayer.symm.trans hFind
          exact hNe (Option.some.inj hSame).symm
        rw [KeyMap.find_erase, if_neg hOther]
        exact hFind
    | _ => exact absurd (by simp) hStays

theorem Table.Run.mapped
    {table : Table}
    {trace : List (Config × Event)}
    {c : Config}
    (run : table.Run trace c) :
    c.Mapped := by
  have hKeep : ∀ (c : Config) (e : Event) (d : Config),
      c.Seated ∧ c.Mapped → c.step e = .ok d →
      d.Seated ∧ d.Mapped := by
    rintro c e d ⟨hSeated, hMapped⟩ hOk
    have hStep := step_of_ok hOk
    exact ⟨hSeated.step hStep, hMapped.step hSeated hStep⟩
  exact (run.invariant_of_step hKeep
    ⟨table.opening_seated, table.opening_mapped⟩).2

/- Whoever has the turn may ask for what the rules let him. -/
theorem exists_accepted
    {s : GameSession}
    {action : Action}
    {amount : Option UInt32}
    (hFurnished : s.Furnished)
    (hMapped : Config.Mapped ⟨s, .done⟩)
    (hPerforms : ∀ p, ∃ t,
      s.performAction p action amount = .ok t) :
    ∃ connection d,
      Config.Accepts ⟨s, .done⟩
        (.applyAction connection action amount) ∧
      Config.step ⟨s, .done⟩
        (.applyAction connection action amount) = .ok d := by
  have hLt := hFurnished.current
  have hAt := List.getElem?_eq_getElem hLt
  have hMem : s.players[s.currentPlayerIndex] ∈ s.players :=
    List.getElem_mem _
  rcases hMapped _ hMem with ⟨connection, hFind⟩
  rcases hPerforms s.players[s.currentPlayerIndex] with
    ⟨t, hPerformed⟩
  have hIdle : Config.Idle ⟨s, .done⟩ :=
    ⟨rfl, hFurnished.enough⟩
  have hFails : (Config.ofResult (s.applyAction connection
      action amount)).FailsOnly (fun _ => False) :=
    Config.ofResult_failsOnly
      (hFurnished.applyAction_failsOnly connection action amount)
  rcases hFails.exists_ok with ⟨d, hOk⟩
  refine ⟨connection, d, ⟨_, t, hFind, hAt, hPerformed⟩, ?_⟩
  simp only [Config.step, hIdle, if_true]
  exact hOk

/- A call that is left to run goes through. -/
theorem Config.Furnished.exists_proceed
    {c : Config}
    (hFurnished : c.Furnished)
    (hSeated : c.Seated)
    (hCall : c.pending ≠ .done)
    (hDeck : ¬ c.DeckShort) :
    ∃ d, c.step (.proceed .unshuffled) = .ok d := by
  rcases c with ⟨s, pending⟩
  have hFails : (Config.ofResult
      (s.body .unshuffled pending)).FailsOnly
        (fun _ => False) :=
    Config.ofResult_failsOnly
      (hFurnished.body_failsOnly hSeated .unshuffled hCall
        hDeck)
  cases hOk : Config.step ⟨s, pending⟩
      (.proceed .unshuffled) with
  | error exn => exact absurd (hFails exn hOk) id
  | ok d => exact ⟨d, rfl⟩

/- A fold of the player on turn is always accepted. -/
theorem Config.InHand.exists_plays
    {c : Config}
    (hHand : c.InHand)
    (hSeated : c.Seated)
    (hFurnished : c.Furnished)
    (hMapped : c.Mapped)
    (hDeck : ¬ c.DeckShort) :
    ∃ d, c.Plays d := by
  by_cases hDone : c.pending = .done
  · rcases c with ⟨s, pending⟩
    subst hDone
    have hEnough : s.hasEnoughPlayers :=
      Nat.le_trans hHand.2 List.countP_le_length
    have hHere := hFurnished.session (by simp)
      (Or.inr hEnough)
    have hFolds : ∀ p, ∃ t,
        s.performAction p .fold none = .ok t :=
      fun p => ⟨_, rfl⟩
    rcases exists_accepted hHere hMapped hFolds with
      ⟨connection, d, hAccepts, hOk⟩
    exact ⟨d, _, Or.inr hAccepts, hOk⟩
  · rcases hFurnished.exists_proceed hSeated hDone hDeck with
      ⟨d, hOk⟩
    exact ⟨d, _, Or.inl ⟨_, rfl⟩, hOk⟩

------------------------------------------------------------
-- No Hand Is Endless
------------------------------------------------------------

/-
  A sequence of calls and actions without an award in which
  actions are accepted over and over again.
-/
def Config.Endless
    (c : Config) : Prop :=
  ∃ (states : ℕ → Config) (events : ℕ → Event),
    states 0 = c ∧
    (∀ n, (states n).step (events n) =
      .ok (states (n + 1))) ∧
    (∀ n connection, events n ≠ .removePlayer connection) ∧
    (∀ n, (states n).pending.isAward = false) ∧
    ∀ n, ∃ m, n ≤ m ∧ (states m).Accepts (events m)

theorem Config.InHand.not_endless
    {c : Config}
    (hHand : c.InHand)
    (hSeated : c.Seated) :
    ¬ c.Endless := by
  rintro ⟨states, events, rfl, hOk, hStays, hOpen, hAccepts⟩
  have hNext : ∀ n,
      (states n).InHand ∧ (states n).Seated →
      Step (states n) (events n) (states (n + 1)) :=
    fun n _ => step_of_ok (hOk n)
  rcases Transition.finitely_often
      (fun c => c.InHand ∧ c.Seated) Config.Accepts
      Config.effort
      (fun n hInv => ⟨hInv.1.step (hOpen n) hInv.2.nodup
        (hStays n) (hNext n hInv),
        hInv.2.step (hNext n hInv)⟩)
      (fun n hInv => by
        rcases (hNext n hInv).effort_lt hInv.1 (hOpen n)
            hInv.2 (hStays n) with
          hLess | ⟨hSame, _⟩
        · exact le_of_lt hLess
        · exact le_of_eq hSame)
      (fun n hInv hHere =>
        (Config.Plays.effort_lt
          ⟨_, Or.inr hHere, hOk n⟩ hInv.1 (hOpen n)
            hInv.2).1)
      ⟨hHand, hSeated⟩ with
    ⟨n, hNever⟩
  rcases hAccepts n with ⟨m, hLe, hHere⟩
  exact hNever m hLe hHere

------------------------------------------------------------
-- The Award Is Reached
------------------------------------------------------------

/- However the players act, the hand comes to an award. -/
def Config.ReachesAward
    (c : Config) : Prop :=
  Transition.Inevitable Config.Plays
    (fun d => d.pending.isAward = true) c

/- A hand dealt to 23 players or less comes to its award. -/
theorem Table.Run.reachesAward
    {table : Table}
    {trace : List (Config × Event)}
    {c : Config}
    (run : table.Run trace c)
    (hHand : c.InHand)
    (hFew : dealtTo trace ≤ 23) :
    c.ReachesAward := by
  refine Transition.Inevitable.of_rank
    (fun d => d.InHand ∧ ∃ trace,
      table.Run trace d ∧ dealtTo trace ≤ 23)
    Config.effort ?_ ?_ ?_ ⟨hHand, trace, run, hFew⟩
  · rintro c d ⟨hHere, trace, run, hDealt⟩ hOpen hPlays
    have hNext := hPlays.effort_lt hHere
      (by simpa using hOpen) run.seated
    rcases hPlays with ⟨e, hKind, hOk⟩
    refine ⟨hNext.2.1, _, run.snoc hOk, ?_⟩
    rw [dealtTo_snoc, if_neg]
    · exact hDealt
    · intro hStart
      unfold Config.InHand at hHere
      rw [hStart] at hHere
      exact hHere
  · rintro c d ⟨hHere, trace, run, hDealt⟩ hOpen hPlays
    exact (hPlays.effort_lt hHere (by simpa using hOpen)
      run.seated).1
  · rintro c ⟨hHere, trace, run, hDealt⟩ hOpen
    refine hHere.exists_plays run.seated run.furnished
      run.mapped fun hShort => ?_
    rcases (run.deckShort_iff .unshuffled).mp hShort with
      ⟨hStart, _⟩ | ⟨_, _, hLarge⟩
    · unfold Config.InHand at hHere
      rw [hStart] at hHere
      exact hHere
    · omega

/- A hand that can still be bet on. -/
def Config.Betting
    (c : Config) : Prop :=
  c.InHand ∧
    (c.pending = .done ∨ c.pending = .askCurrentPlayer ∨
      c.pending = .nextPhase)

theorem Config.Betting.inProgress
    {c : Config}
    (hBetting : c.Betting) :
    c.session.InProgress := by
  rcases hBetting with ⟨hHand, hDone | hAsk | hNext⟩
  · unfold Config.InHand at hHand
    rw [hDone] at hHand
    exact hHand
  · unfold Config.InHand at hHand
    rw [hAsk] at hHand
    exact hHand
  · unfold Config.InHand at hHand
    rw [hNext] at hHand
    exact hHand

theorem GameSession.Closes.betting
    {s : GameSession}
    {pending : Pending}
    (hCloses : s.Closes pending)
    (hProgress : s.InProgress) :
    Config.Betting ⟨s, pending⟩ := by
  refine ⟨hCloses.inHand hProgress, ?_⟩
  rcases hCloses with ⟨_, rfl⟩ | ⟨_, rfl⟩
  · exact Or.inr (Or.inr rfl)
  · exact Or.inr (Or.inl rfl)

/-
  As long as everybody calls and there is a river to come,
  the betting goes on.
-/
theorem Config.Betting.exists_plays
    {c : Config}
    (hBetting : c.Betting)
    (hSeated : c.Seated)
    (hFurnished : c.Furnished)
    (hMapped : c.Mapped)
    (hDeck : ¬ c.DeckShort)
    (hPhase : c.session.phase ≠ .river) :
    ∃ d, c.Plays d ∧ d.Betting := by
  have hProgress := hBetting.inProgress
  rcases c with ⟨s, pending⟩
  have hHand := hBetting.1
  by_cases hDone : pending = .done
  · subst hDone
    have hEnough : s.hasEnoughPlayers :=
      Nat.le_trans hProgress.2 List.countP_le_length
    have hHere := hFurnished.session (by simp)
      (Or.inr hEnough)
    have hNodup : s.players.Nodup := hSeated.nodup
    have hCalls : ∀ p, ∃ t,
        s.performAction p .call none = .ok t := by
      intro p
      simp only [GameSession.performAction]
      split
      · exact ⟨_, rfl⟩
      · exact ⟨_, rfl⟩
    rcases exists_accepted hHere hMapped hCalls with
      ⟨connection, d, hAccepts, hOk⟩
    refine ⟨d, ⟨_, Or.inr hAccepts, hOk⟩, ?_⟩
    rcases hAccepts with ⟨p, t, hPlayer, hAt, hPerformed⟩
    have hStep := step_of_ok hOk
    cases hStep with
    | unmapped _ hNone =>
        dsimp only at hPlayer
        rw [hNone] at hPlayer
        cases hPlayer
    | rejected => exact ⟨hHand, Or.inl rfl⟩
    | @wonByAction _ t u q _ _ _ _ _ _ hActs hQuiet hOne =>
        have hSame : t.countActivePlayers =
            s.countActivePlayers := by
          unfold GameSession.countActivePlayers
          cases hActs with
          | callNothing => rfl
          | call =>
              have hFrame := s.contribute_frame q
                (s.currentBet - s.roundBets.get q)
              rw [hFrame.1, hFrame.2.2.2.2.1]
        rcases hQuiet with ⟨_, _, rfl, _⟩
        change t.countActivePlayers = 1 at hOne
        have hTwo := hProgress.2
        dsimp only at hTwo
        omega
    | acted _ _ _ hActs hQuiet hMany hCloses =>
        have hGoesOn := hActs.inProgress hQuiet hNodup
          hProgress hMany
        exact hCloses.betting hGoesOn
  · rcases hFurnished.exists_proceed hSeated hDone hDeck with
      ⟨d, hOk⟩
    refine ⟨d, ⟨_, Or.inl ⟨_, rfl⟩, hOk⟩, ?_⟩
    have hTwo := hProgress.2
    dsimp only at hTwo
    rcases hBetting.2 with hPending | hPending | hPending
    · exact absurd hPending hDone
    · dsimp only at hPending
      subst hPending
      cases step_of_ok hOk with
      | asked hAt hAct => exact ⟨hHand, Or.inl rfl⟩
      | passedOver hAt hAct hCloses =>
          exact hCloses.betting hProgress
    · dsimp only at hPending
      subst hPending
      have hNext := hHand.step rfl hSeated.nodup
        (by simp) (step_of_ok hOk)
      cases step_of_ok hOk with
      | wonByFold hOne => omega
      | street hMany hStreet hDeal hQuiet =>
          exact ⟨hNext, Or.inr (Or.inl rfl)⟩
      | riverClosed hMany hRiver => exact absurd hRiver hPhase
      | pastShowdown hMany hShown =>
          exact absurd hShown hProgress.1

/- A hand dealt to more than 23 players need not. -/
theorem Table.Run.not_reachesAward
    {table : Table}
    {trace : List (Config × Event)}
    {c : Config}
    (run : table.Run trace c)
    (hBetting : c.Betting)
    (hMany : 23 < dealtTo trace) :
    ¬ c.ReachesAward := by
  intro hReaches
  induction hReaches generalizing trace with
  | here hAward =>
      rcases hBetting.2 with hPending | hPending | hPending
      · simp [hPending, Pending.isAward] at hAward
      · simp [hPending, Pending.isAward] at hAward
      · simp [hPending, Pending.isAward] at hAward
  | @later c hSome hAll ih =>
      have hOpen : c.pending ≠ .start := by
        rcases hBetting.2 with hPending | hPending | hPending
        · simp [hPending]
        · simp [hPending]
        · simp [hPending]
      have hPhase : c.session.phase ≠ .river := by
        intro hRiver
        have hLength := run.deck_length hOpen
        rw [hRiver] at hLength
        change _ + 5 + _ = 52 at hLength
        omega
      by_cases hShort : c.DeckShort
      · rcases hSome with ⟨d, e, hKind, hOk⟩
        rcases hKind with ⟨shuffle, rfl⟩ | hAccepts
        · rw [hShort.error run.seated run.furnished shuffle]
            at hOk
          cases hOk
        · have hDone := Config.pending_of_accepts hAccepts hOk
          rcases hShort with ⟨hStart, _⟩ | ⟨hNext, _⟩
          · exact hOpen hStart
          · rw [hDone] at hNext
            cases hNext
      · rcases hBetting.exists_plays run.seated run.furnished
            run.mapped hShort hPhase with
          ⟨d, hPlays, hNext⟩
        have hMoves := hPlays
        rcases hPlays with ⟨e, hKind, hOk⟩
        refine ih d hMoves (run.snoc hOk) hNext ?_
        rw [dealtTo_snoc, if_neg hOpen]
        exact hMany

/-
  From every state in which a hand is being played: accepted
  actions lower the effort and are not accepted without end,
  and the hand comes to its award exactly when it was dealt
  to 23 players or less.
-/
theorem Table.Run.reachesAward_iff
    {table : Table}
    {trace : List (Config × Event)}
    {c : Config}
    (run : table.Run trace c)
    (hDone : c.pending = .done)
    (hProgress : c.session.InProgress) :
    (∀ e d, c.Accepts e → c.step e = .ok d →
      d.effort < c.effort) ∧
    ¬ c.Endless ∧
    (c.ReachesAward ↔ dealtTo trace ≤ 23) := by
  have hHand : c.InHand := by
    unfold Config.InHand
    rw [hDone]
    exact hProgress
  refine ⟨fun e d hAccepts hOk => hAccepts.effort_lt hOk hHand
    run.seated hDone, hHand.not_endless run.seated, ?_⟩
  constructor
  · intro hReaches
    by_contra hMany
    exact run.not_reachesAward ⟨hHand, Or.inl hDone⟩
      (Nat.lt_of_not_le hMany) hReaches
  · exact run.reachesAward hHand

/- Of 25 players the first one is asked. -/
theorem Table.crowd_not_reachesAward :
    ¬ ∀ (table : Table) (trace : List (Config × Event))
        (c : Config),
      table.Run trace c → c.pending = .done →
        c.session.InProgress →
        ¬ c.Endless ∧ c.ReachesAward := by
  intro hAll
  rcases exists_run
      (numbered (List.replicate 25 1000) (by decide))
      (Event.proceeds 2)
      (fun trace c => decide
        (c.pending = .done ∧ dealtTo trace = 25 ∧
          c.session.InProgress))
      (by decide +kernel) with
    ⟨trace, c, run, hTest⟩
  rcases of_decide_eq_true hTest with
    ⟨hDone, hDealt, hProgress⟩
  have hHand : c.InHand := by
    unfold Config.InHand
    rw [hDone]
    exact hProgress
  exact run.not_reachesAward ⟨hHand, Or.inl hDone⟩
    (by omega) (hAll _ _ _ run hDone hProgress).2

/- Of three players the first one is asked. -/
theorem Table.threeHanded_reachesAward :
    ∃ trace c,
      (numbered [1000, 1000, 1000] (by decide)).Run trace c ∧
      c.pending = .done ∧ c.session.InProgress ∧
      ¬ c.Endless ∧ c.ReachesAward := by
  rcases exists_run (numbered [1000, 1000, 1000] (by decide))
      (Event.proceeds 2)
      (fun trace c => decide
        (c.pending = .done ∧ dealtTo trace = 3 ∧
          c.session.InProgress))
      (by decide +kernel) with
    ⟨trace, c, run, hTest⟩
  rcases of_decide_eq_true hTest with
    ⟨hDone, hDealt, hProgress⟩
  have hEnds := run.reachesAward_iff hDone hProgress
  exact ⟨trace, c, run, hDone, hProgress, hEnds.2.1,
    hEnds.2.2.mpr (by omega)⟩

end Server

end Poker

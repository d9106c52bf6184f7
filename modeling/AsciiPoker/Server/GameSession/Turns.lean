import AsciiPoker.Server.GameSession.Stages

/-
  Whose turn it is.

  While a hand is in progress the seat on turn is that of
  the player who was asked last, and he can act.  A departure
  breaks this when it shifts the last seat, on turn, to a
  lower index: the index repair then starts over at zero.

  Main declarations:
    * `GameSession.InProgress`, `GameSession.TurnHeld`
    * `Config.shiftsTurn`
    * `Table.Run.turnHeld`
-/

namespace Poker

namespace Server

open Protocol

namespace GameSession

/- A hand that is being played and is not yet decided. -/
def InProgress
    (s : GameSession) : Prop :=
  s.phase ≠ .showdown ∧ 2 ≤ s.countActivePlayers

instance (s : GameSession) : Decidable s.InProgress :=
  inferInstanceAs (Decidable (_ ∧ _))

/- The player on turn, who can act and was asked last. -/
def HeldBy
    (s : GameSession)
    (p : PlayerId) : Prop :=
  s.players[s.currentPlayerIndex]? = some p ∧
    s.canPlayerAct p ∧
    s.turnsAsked.getLast? = some p

/- Somebody has the turn and knows it. -/
def TurnHeld
    (s : GameSession) : Prop :=
  ∃ p, s.HeldBy p

------------------------------------------------------------
-- Asking
------------------------------------------------------------

/- A player who is asked is the one who was asked last. -/
theorem turnsAsked_yourTurn
    (s : GameSession)
    (p : PlayerId)
    (turn : YourTurn) :
    (s.send p (.yourTurn turn)).turnsAsked =
      s.turnsAsked ++ [p] := by
  simp [turnsAsked, send, Effect.turnOf]

/- A quiet change leaves the turn with whoever has it. -/
theorem HeldBy.quiet
    {s t : GameSession}
    {p : PlayerId}
    (hHeld : s.HeldBy p)
    (hQuiet : s.Quiet t) :
    t.HeldBy p := by
  rcases hQuiet with ⟨_, _, rfl, hTurns⟩
  refine ⟨hHeld.1, hHeld.2.1, ?_⟩
  rw [hTurns]
  exact hHeld.2.2

------------------------------------------------------------
-- Departures
------------------------------------------------------------

/- Another player's fold leaves the turn where it is. -/
theorem HeldBy.foldLeaver
    {s : GameSession}
    {p q : PlayerId}
    (hHeld : s.HeldBy p)
    (hNe : p ≠ q) :
    (s.foldLeaver q).HeldBy p := by
  refine ⟨hHeld.1, ⟨?_, hHeld.2.1.2⟩, hHeld.2.2⟩
  intro hMem
  rcases Finset.mem_insert.mp hMem with hEq | hFolded
  · exact hNe hEq
  · exact hHeld.2.1.1 hFolded

/-
  The repaired index points to the same player, unless the
  last seat was on turn and is shifted.
-/
theorem getElem?_fixIndex
    {players : List PlayerId}
    {index removed : Nat}
    {p : PlayerId}
    (hAt : players[index]? = some p)
    (hOther : index ≠ removed)
    (hSeat : removed < players.length)
    (hStays : ¬ (removed < index ∧
      index + 1 = players.length)) :
    (players.eraseIdx removed)[fixIndex index removed
      (players.eraseIdx removed).length]? = some p := by
  have hIn := (List.getElem?_eq_some_iff.mp hAt).1
  have hLength := List.length_eraseIdx_of_lt hSeat
  have hShort : index < players.length - 1 := by omega
  unfold fixIndex
  rw [hLength, if_neg (by omega), List.getElem?_eraseIdx]
  by_cases hBefore : removed < index
  · rw [if_pos hBefore, if_neg (by omega)]
    rw [show index - 1 + 1 = index by omega]
    exact hAt
  · rw [if_neg hBefore, if_pos (by omega)]
    exact hAt

/- The turn stays with its holder when another leaves. -/
theorem HeldBy.vacate
    {s : GameSession}
    {leaver : Leaver}
    {p : PlayerId}
    (hHeld : s.HeldBy p)
    (hNe : p ≠ leaver.player)
    (hAt : s.players[leaver.removedIndex]? =
      some leaver.player)
    (hStays : ¬ (leaver.removedIndex < s.currentPlayerIndex ∧
      s.currentPlayerIndex + 1 = s.players.length)) :
    (s.vacate leaver).HeldBy p := by
  have hSeat := (List.getElem?_eq_some_iff.mp hAt).1
  have hOther : s.currentPlayerIndex ≠ leaver.removedIndex := by
    intro hSame
    have hHere := hHeld.1
    rw [hSame, hAt] at hHere
    exact hNe (Option.some.inj hHere).symm
  have hIndex := getElem?_fixIndex hHeld.1 hOther hSeat hStays
  rcases s.vacate_eq leaver with ⟨_, _, hEq, hTurns⟩
  refine ⟨?_, ?_, ?_⟩
  · rw [hEq]
    exact hIndex
  · rw [hEq]
    exact ⟨fun h => hHeld.2.1.1 (Finset.mem_of_mem_erase h),
      fun h => hHeld.2.1.2 (Finset.mem_of_mem_erase h)⟩
  · rw [hTurns]
    exact hHeld.2.2

end GameSession

------------------------------------------------------------
-- Runs
------------------------------------------------------------

/-
  The departure of a lower seat shifts the last one, which
  is on turn, while the hand goes on and the round is open.
-/
def Config.shiftsTurn
    (c : Config) : Bool :=
  match c.pending with
  | .resume (.finishRemoval leaver) =>
      decide
        (leaver.removedIndex < c.session.currentPlayerIndex ∧
          c.session.currentPlayerIndex + 1 =
            c.session.players.length ∧
          c.session.phase ≠ .showdown) &&
        match (c.session.vacate leaver).isRoundComplete with
        | .ok complete => !complete
        | .error _ => false
  | _ => false

/-
  The turn is held when nothing is left to run, and kept by
  its holder while somebody else is being removed.
-/
def Config.TurnKept
    (c : Config) : Prop :=
  match c.pending with
  | .done => c.session.InProgress → c.session.TurnHeld
  | .resume (.finishRemoval leaver) =>
      c.session.InProgress → leaver.wasCurrent = false →
        ∃ p, p ≠ leaver.player ∧ c.session.HeldBy p
  | _ => True

theorem GameSession.Closes.turnKept
    {s : GameSession}
    {pending : Pending}
    (hCloses : s.Closes pending) :
    Config.TurnKept ⟨s, pending⟩ := by
  rcases hCloses with ⟨_, rfl⟩ | ⟨_, rfl⟩
  · trivial
  · trivial

/- Every step that does not shift the turn keeps it. -/
theorem Config.TurnKept.step
    {c d : Config}
    {e : Event}
    (hOrder : c.InOrder)
    (hShift : c.shiftsTurn = false)
    (hKept : c.TurnKept)
    (hStep : Step c e d) :
    d.TurnKept := by
  have hNodup := hOrder.1.nodup
  have hLeaver := hOrder.1.leaver
  have hStaged := hOrder.2
  cases hStep with
  | started hDealt hPosted hQuiet => trivial
  | @asked s p shuffle hAt hAct =>
      intro _
      refine ⟨p, hAt, hAct, ?_⟩
      rw [GameSession.turnsAsked_yourTurn]
      exact List.getLast?_concat ..
  | passedOver hAt hAct hCloses => exact hCloses.turnKept
  | wonByFold hOne => trivial
  | street hMany hPhase hDeal hQuiet => trivial
  | riverClosed hMany hPhase => trivial
  | pastShowdown hMany hPhase =>
      rintro ⟨hNot, _⟩
      exact absurd hPhase hNot
  | shownDown hQuiet hPending =>
      rcases hPending with ⟨_, rfl⟩ | ⟨_, rfl⟩ | ⟨_, rfl⟩
      · trivial
      · trivial
      · trivial
  | singleWinner => trivial
  | @awardedNothing s next shuffle hEmpty =>
      cases next with
      | tryStartNewHand => trivial
      | finishRemoval l =>
          -- The award of a leaver's fold leaves one active.
          rintro ⟨_, hTwo⟩
          have hOne : s.countActivePlayers = 1 := hStaged
          dsimp only at hTwo
          omega
  | @awarded s t award next shuffle hFull hPaid hQuiet =>
      cases next with
      | tryStartNewHand => trivial
      | finishRemoval l =>
          rintro ⟨_, hTwo⟩
          have hOne : s.countActivePlayers = 1 := hStaged
          rcases GameSession.payPots_frame hPaid with
            ⟨chips, hEq⟩
          rcases hQuiet with ⟨_, _, rfl, _⟩
          rw [hEq] at hTwo
          change 2 ≤ s.countActivePlayers at hTwo
          omega
  | handOver hEnough hChips => trivial
  | gameOver hOver =>
      rintro ⟨hNot, hTwo⟩
      rcases hStaged with ⟨_, hShowdown | hOne⟩
      · exact absurd hShowdown hNot
      · dsimp only at hOne hTwo
        omega
  | @leftFew s t leaver shuffle hFew hErased =>
      rintro ⟨_, hTwo⟩
      have hLe : t.countActivePlayers ≤ t.players.length :=
        List.countP_le_length
      unfold GameSession.hasEnoughPlayers at hFew
      dsimp only at hTwo
      omega
  | leftOneActive hEnough hOne => trivial
  | leftClosing hEnough hMany hCloses =>
      exact hCloses.turnKept
  | @leftWaiting s t leaver shuffle hEnough hMany hOther hOpen
      hQuiet =>
      rcases hLeaver leaver rfl with ⟨hAt, hFolded⟩
      rintro hProgress
      have hQuiet' := hQuiet
      rcases hQuiet with ⟨_, _, rfl, _⟩
      rcases hProgress with ⟨hNot, hTwo⟩
      change (s.vacate leaver).phase ≠ _ at hNot
      change 2 ≤ (s.vacate leaver).countActivePlayers at hTwo
      rw [GameSession.vacate_phase] at hNot
      rw [GameSession.countActivePlayers_vacate hNodup hAt
        hFolded] at hTwo
      rcases hKept ⟨hNot, hTwo⟩ hOther with ⟨p, hNe, hHeld⟩
      have hStays : ¬ (leaver.removedIndex <
            s.currentPlayerIndex ∧
          s.currentPlayerIndex + 1 = s.players.length) := by
        rintro ⟨hBefore, hLast⟩
        simp [Config.shiftsTurn, hBefore, hLast, hNot,
          hOpen] at hShift
      exact ⟨p, (hHeld.vacate hNe hAt hStays).quiet hQuiet'⟩
  | unmapped hEnough hNone => exact hKept
  | rejected hEnough hPlayer =>
      intro hProgress
      rcases hKept hProgress with ⟨p, hHeld⟩
      exact ⟨p, hHeld.quiet (GameSession.sendError_quiet ..)⟩
  | wonByAction hEnough hPlayer hAt hActs hQuiet hOne =>
      trivial
  | acted hEnough hPlayer hAt hActs hQuiet hMany hCloses =>
      exact hCloses.turnKept
  | notSeated hEnough hNone => exact hKept
  | @leaving s l current pending hEnough hPlayer hAt hCurrent
      hWas hPending =>
      rcases hPending with ⟨_, rfl⟩ | ⟨_, rfl⟩
      · trivial
      · rintro ⟨hNot, hTwo⟩ hOther
        have hCount :=
          (GameSession.countActivePlayers_foldLeaver l.player
            hNodup).2
        dsimp only at hCount hTwo
        rcases hKept ⟨hNot, Nat.le_trans hTwo hCount⟩ with
          ⟨p, hHeld⟩
        have hNe : p ≠ l.player := by
          rintro rfl
          have hSame := hHeld.1
          dsimp only at hSame
          rw [hCurrent] at hSame
          rw [hWas] at hOther
          exact of_decide_eq_false hOther
            (Option.some.inj hSame)
        exact ⟨p, hNe, hHeld.foldLeaver hNe⟩

/- An action that moves chips is that of whoever has the turn. -/
theorem GameSession.HeldBy.acts
    {s : GameSession}
    {d : Config}
    {connection : ConnId}
    {action : Action}
    {amount : Option UInt32}
    {p : PlayerId}
    (hHeld : s.HeldBy p)
    (hStep : Step ⟨s, .done⟩
      (.applyAction connection action amount) d)
    (hMoved : d.session.chips ≠ s.chips) :
    s.getPlayer connection = some p ∧ s.canPlayerAct p := by
  refine ⟨?_, hHeld.2.1⟩
  have hTurn := hHeld.1
  cases hStep with
  | unmapped hEnough hNone => exact absurd rfl hMoved
  | rejected hEnough hPlayer => exact absurd rfl hMoved
  | wonByAction hEnough hPlayer hAt hActs hQuiet hOne =>
      rw [hTurn] at hAt
      rw [hPlayer, hAt]
  | acted hEnough hPlayer hAt hActs hQuiet hMany hCloses =>
      rw [hTurn] at hAt
      rw [hPlayer, hAt]

section Runs

variable {table : Table}
variable {trace : List (Config × Event)}

/-
  In a run that never shifts the turn, whenever a session is
  at rest and its hand is in progress, the seat on turn is
  that of the player who was asked last; he can act, and
  nobody else can move chips.
-/
theorem Table.Run.turnHeld
    {s : GameSession}
    (run : table.Run trace ⟨s, .done⟩)
    (hShift : ∀ p ∈ trace, p.1.shiftsTurn = false)
    (hProgress : s.InProgress) :
    s.TurnHeld ∧
      ∀ connection action amount d,
        Config.step ⟨s, .done⟩
          (.applyAction connection action amount) = .ok d →
        d.session.chips ≠ s.chips →
        ∃ p, s.getPlayer connection = some p ∧
          s.canPlayerAct p := by
  let Inv : Config → Prop :=
    fun c => c.InOrder ∧ c.TurnKept
  have hKeep : ∀ c e d, Inv c → c.shiftsTurn = false →
      c.step e = .ok d → Inv d := by
    rintro c e d ⟨hOrder, hKept⟩ hStays hOk
    exact ⟨hOrder.step hOk,
      hKept.step hOrder hStays (step_of_ok hOk)⟩
  have hStart : Inv table.opening :=
    ⟨table.opening_inOrder, trivial⟩
  rcases (run.invariant hKeep hShift hStart).2 hProgress with
    ⟨p, hHeld⟩
  refine ⟨⟨p, hHeld⟩, ?_⟩
  intro connection action amount d hOk hMoved
  exact ⟨p, hHeld.acts (step_of_ok hOk) hMoved⟩

/-
  Players 0 and 1 call the blind; player 2 is asked, and
  player 0 leaves.
-/
def Event.shiftedTurn : List Event :=
  proceeds 2 ++ [act 0 .call] ++ proceeds 1 ++
    [act 1 .call] ++ proceeds 1 ++ [.removePlayer 0] ++
    proceeds 1

/- Player 2 was asked last, but player 1 is on turn. -/
theorem Table.shiftedTurn_not_held :
    ∃ trace s,
      (numbered [1000, 1000, 1000] (by decide)).Run trace
        ⟨s, .done⟩ ∧
      s.InProgress ∧
      s.players[s.currentPlayerIndex]? = some 1 ∧
      s.turnsAsked.getLast? = some 2 ∧
      ¬ s.TurnHeld := by
  rcases exists_run
      (numbered [1000, 1000, 1000] (by decide))
      Event.shiftedTurn
      (fun _ c => decide
        (c.pending = .done ∧ c.session.InProgress ∧
          c.session.players[c.session.currentPlayerIndex]? =
            some 1 ∧
          c.session.turnsAsked.getLast? = some 2))
      (by decide +kernel) with
    ⟨trace, ⟨s, pending⟩, run, hTest⟩
  rcases of_decide_eq_true hTest with
    ⟨hRest, hProgress, hTurn, hAsked⟩
  cases hRest
  refine ⟨trace, s, run, hProgress, hTurn, hAsked, ?_⟩
  rintro ⟨p, hAt, _, hLast⟩
  dsimp only at hTurn hAsked
  rw [hTurn] at hAt
  rw [hAsked] at hLast
  cases hAt
  cases hLast

/- Player 0 calls the blind and leaves on player 1's turn. -/
def Event.keptTurn : List Event :=
  proceeds 2 ++ [act 0 .call] ++ proceeds 1 ++
    [.removePlayer 0] ++ proceeds 1

theorem Table.keptTurn_held :
    ∃ trace s,
      (numbered [1000, 1000, 1000] (by decide)).Run trace
        ⟨s, .done⟩ ∧
      s.TurnHeld := by
  rcases exists_run
      (numbered [1000, 1000, 1000] (by decide))
      Event.keptTurn
      (fun trace c => decide
        (c.pending = .done ∧ c.session.InProgress ∧
          ∀ p ∈ trace, p.1.shiftsTurn = false))
      (by decide +kernel) with
    ⟨trace, ⟨s, pending⟩, run, hTest⟩
  rcases of_decide_eq_true hTest with
    ⟨hRest, hProgress, hShift⟩
  cases hRest
  exact ⟨trace, s, run,
    (run.turnHeld hShift hProgress).1⟩

end Runs

end Server

end Poker

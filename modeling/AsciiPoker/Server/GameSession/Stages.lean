import AsciiPoker.Server.GameSession.Seated

/-
  How far the hand is when a call is left to run.

  Main declarations:
    * `Config.Staged`, `Config.Staged.step`
    * `Config.InOrder`, `Table.Run.inOrder`
-/

namespace Poker

namespace Server

open Protocol

/- A betting round is only open among two or more. -/
theorem GameSession.two_le_of_open
    {s : GameSession}
    (hOpen : s.isRoundComplete = .ok false) :
    2 ≤ s.countActivePlayers := by
  unfold isRoundComplete at hOpen
  by_cases hFew : s.countActivePlayers ≤ 1
  · simp [hFew] at hOpen
  · omega

/- A seated player who can act is active. -/
theorem GameSession.one_le_of_canPlayerAct
    {s : GameSession}
    {i : Nat}
    {p : PlayerId}
    (hAt : s.players[i]? = some p)
    (hAct : s.canPlayerAct p) :
    1 ≤ s.countActivePlayers := by
  apply List.countP_pos_iff.mpr
  exact ⟨p, List.mem_of_getElem? hAt, by simp [hAct.1]⟩

/-
  A pot is only left unawarded while two or more are in the
  hand, or after the game is over.
-/
def Config.Staged
    (c : Config) : Prop :=
  match c.pending with
  | .done =>
      ¬ c.session.hasEnoughPlayers ∨
        c.session.phase = .showdown ∨
        2 ≤ c.session.countActivePlayers ∨
        (c.session.countActivePlayers = 1 ∧
          c.session.pot = 0)
  | .start =>
      c.session.hasEnoughPlayers ∧ c.session.pot = 0
  | .askCurrentPlayer =>
      c.session.phase = .showdown ∨
        2 ≤ c.session.countActivePlayers ∨
        c.session.pot = 0
  | .nextPhase =>
      c.session.phase = .showdown ∨
        2 ≤ c.session.countActivePlayers ∨
        c.session.pot = 0
  | .doShowdown =>
      2 ≤ c.session.countActivePlayers ∨ c.session.pot = 0
  | .handleSingleWinner =>
      c.session.countActivePlayers = 1
  | .awardAllPots .tryStartNewHand =>
      c.session.phase = .showdown ∨
        c.session.countActivePlayers = 1
  | .awardAllPots (.finishRemoval _) =>
      c.session.countActivePlayers = 1
  | .resume .tryStartNewHand =>
      c.session.pot = 0 ∧
        (c.session.phase = .showdown ∨
          c.session.countActivePlayers = 1)
  | .resume (.finishRemoval _) =>
      c.session.pot = 0 ∨
        (c.session.countActivePlayers ≠ 1 ∧
          (c.session.phase = .showdown ∨
            2 ≤ c.session.countActivePlayers))

/- Closing a round or asking needs the same stage. -/
theorem GameSession.Closes.staged
    {s : GameSession}
    {pending : Pending}
    (hCloses : s.Closes pending)
    (hStage : s.phase = .showdown ∨
      2 ≤ s.countActivePlayers ∨ s.pot = 0) :
    Config.Staged ⟨s, pending⟩ := by
  rcases hCloses with ⟨_, rfl⟩ | ⟨_, rfl⟩
  · exact hStage
  · exact hStage

/-
  The stage of a table at rest when the number of active
  players has changed by an action or an auto-fold.
-/
theorem GameSession.staged_of_rest
    {s t : GameSession}
    (hEnough : s.hasEnoughPlayers)
    (hRest : Config.Staged ⟨s, .done⟩)
    (hPhase : t.phase = s.phase)
    (hMany : t.countActivePlayers ≠ 1)
    (hCount :
      t.countActivePlayers = s.countActivePlayers ∨
        (s.countActivePlayers ≤ t.countActivePlayers + 1 ∧
          t.pot = s.pot)) :
    t.phase = .showdown ∨ 2 ≤ t.countActivePlayers ∨
      t.pot = 0 := by
  rcases hRest with hNot | hShowdown | hTwo | ⟨hOne, hPot⟩
  · exact absurd hEnough hNot
  · exact Or.inl (hPhase.trans hShowdown)
  · refine Or.inr (Or.inl ?_)
    dsimp only at hTwo
    omega
  · dsimp only at hOne hPot
    rcases hCount with hSame | ⟨_, hSamePot⟩
    · omega
    · exact Or.inr (Or.inr (hSamePot.trans hPot))

/- How an accepted action changes the number of active. -/
theorem GameSession.Acts.countActivePlayers
    {s t : GameSession}
    {p : PlayerId}
    {action : Action}
    {amount : Option UInt32}
    (hActs : s.Acts p action amount t)
    (hNodup : s.players.Nodup) :
    t.countActivePlayers = s.countActivePlayers ∨
      (s.countActivePlayers ≤ t.countActivePlayers + 1 ∧
        t.pot = s.pot) := by
  rcases hActs.foldedPlayers_eq with hSame | rfl
  · left
    unfold GameSession.countActivePlayers
    rw [hActs.frame.1, hSame]
  · right
    exact ⟨(countActivePlayers_foldLeaver p hNodup).1, rfl⟩

/- Erasing a leaver keeps the stage of the hand. -/
theorem Config.Staged.vacate
    {s : GameSession}
    {leaver : Leaver}
    (hSeated : Config.Seated
      ⟨s, .resume (.finishRemoval leaver)⟩)
    (hStaged : Config.Staged
      ⟨s, .resume (.finishRemoval leaver)⟩) :
    (s.vacate leaver).pot = 0 ∨
      ((s.vacate leaver).countActivePlayers ≠ 1 ∧
        ((s.vacate leaver).phase = .showdown ∨
          2 ≤ (s.vacate leaver).countActivePlayers)) := by
  rcases hSeated.leaver leaver rfl with ⟨hAt, hFolded⟩
  rw [GameSession.countActivePlayers_vacate hSeated.nodup
    hAt hFolded, GameSession.vacate_pot,
    GameSession.vacate_phase]
  exact hStaged

/- Every step takes the hand to its next stage. -/
theorem Config.Staged.step
    {c d : Config}
    {e : Event}
    (hSeated : c.Seated)
    (hStaged : c.Staged)
    (hStep : Step c e d) :
    d.Staged := by
  have hNodup := hSeated.nodup
  cases hStep with
  | @started s dealt posted t shuffle hDealt hPosted hQuiet =>
      rcases hQuiet with ⟨_, _, rfl, _⟩
      rcases GameSession.started_dealtIn hDealt hPosted with
        ⟨hPlayers, hNobody, _⟩
      refine Or.inr (Or.inl ?_)
      change 2 ≤ posted.countActivePlayers
      rw [GameSession.countActivePlayers_of_empty hNobody,
        hPlayers]
      exact hStaged.1
  | @asked s p shuffle hAt hAct =>
      have hOne := GameSession.one_le_of_canPlayerAct hAt hAct
      rcases hStaged with hShowdown | hTwo | hPot
      · exact Or.inr (Or.inl hShowdown)
      · exact Or.inr (Or.inr (Or.inl hTwo))
      · by_cases hTwo : 2 ≤ s.countActivePlayers
        · exact Or.inr (Or.inr (Or.inl hTwo))
        · have hExact : s.countActivePlayers = 1 := by
            omega
          exact Or.inr (Or.inr (Or.inr ⟨hExact, hPot⟩))
  | passedOver hAt hAct hCloses =>
      exact hCloses.staged hStaged
  | wonByFold hOne => exact hOne
  | @street s t count phase dealt rest shuffle hMany hPhase
      hDeal hQuiet =>
      rcases hQuiet with ⟨_, _, rfl, _⟩
      rcases hStaged with hShowdown | hStage
      · dsimp only at hShowdown
        simp [hShowdown] at hPhase
      · exact Or.inr hStage
  | riverClosed hMany hPhase =>
      rcases hStaged with hShowdown | hStage
      · dsimp only at hShowdown
        simp [hShowdown] at hPhase
      · exact hStage
  | pastShowdown hMany hPhase =>
      exact Or.inr (Or.inl hPhase)
  | @shownDown s t pending shuffle hQuiet hPending =>
      rcases hQuiet with ⟨_, _, rfl, _⟩
      rcases hPending with
        ⟨hZero, rfl⟩ | ⟨hOne, rfl⟩ | ⟨_, rfl⟩
      · refine ⟨?_, Or.inl rfl⟩
        rcases hStaged with hTwo | hPot
        · dsimp only at hTwo
          omega
        · exact hPot
      · exact hOne
      · exact Or.inl rfl
  | singleWinner => exact Or.inr hStaged
  | @awardedNothing s next shuffle hEmpty =>
      cases next with
      | tryStartNewHand => exact ⟨hEmpty, hStaged⟩
      | finishRemoval l => exact Or.inl hEmpty
  | @awarded s t award next shuffle hFull hPaid hQuiet =>
      rcases GameSession.payPots_frame hPaid with ⟨chips, hEq⟩
      rcases hQuiet with ⟨_, _, rfl, _⟩
      cases next with
      | tryStartNewHand =>
          refine ⟨rfl, ?_⟩
          rw [hEq]
          exact hStaged
      | finishRemoval l => exact Or.inl rfl
  | handOver hEnough hChips =>
      exact ⟨hEnough, hStaged.1⟩
  | gameOver hOver =>
      rcases hStaged with ⟨hPot, hShowdown | hOne⟩
      · exact Or.inr (Or.inl hShowdown)
      · exact Or.inr (Or.inr (Or.inr ⟨hOne, hPot⟩))
  | leftFew hFew hErased => exact Or.inl hFew
  | leftOneActive hEnough hOne =>
      rcases Config.Staged.vacate hSeated hStaged with
        hPot | ⟨hMany, _⟩
      · exact ⟨hPot, Or.inr hOne⟩
      · exact absurd hOne hMany
  | leftClosing hEnough hMany hCloses =>
      apply hCloses.staged
      rcases Config.Staged.vacate hSeated hStaged with
        hPot | ⟨_, hShowdown | hTwo⟩
      · exact Or.inr (Or.inr hPot)
      · exact Or.inl hShowdown
      · exact Or.inr (Or.inl hTwo)
  | leftWaiting hEnough hMany hOther hOpen hQuiet =>
      rcases hQuiet with ⟨_, _, rfl, _⟩
      have hTwo := GameSession.two_le_of_open hOpen
      exact Or.inr (Or.inr (Or.inl hTwo))
  | unmapped hEnough hNone => exact hStaged
  | rejected hEnough hPlayer => exact hStaged
  | wonByAction hEnough hPlayer hAt hActs hQuiet hOne =>
      exact hOne
  | acted hEnough hPlayer hAt hActs hQuiet hMany hCloses =>
      rcases hQuiet with ⟨_, _, rfl, _⟩
      apply hCloses.staged
      exact GameSession.staged_of_rest hEnough hStaged
        hActs.frame.2.2.1 hMany
        (hActs.countActivePlayers hNodup)
  | notSeated hEnough hNone => exact hStaged
  | @leaving s l current pending hEnough hPlayer hAt hCurrent
      hWas hPending =>
      rcases hPending with ⟨hOne, rfl⟩ | ⟨hMany, rfl⟩
      · exact hOne
      · have hCount := GameSession.countActivePlayers_foldLeaver
          l.player hNodup
        rcases GameSession.staged_of_rest
            (t := s.foldLeaver l.player) hEnough hStaged rfl
            hMany (Or.inr ⟨hCount.1, rfl⟩) with
          hShowdown | hTwo | hPot
        · exact Or.inr ⟨hMany, Or.inl hShowdown⟩
        · exact Or.inr ⟨hMany, Or.inr hTwo⟩
        · exact Or.inl hPot

/- A new session is about to deal its first hand. -/
theorem Table.opening_staged
    (table : Table) :
    table.opening.Staged := by
  refine ⟨?_, rfl⟩
  have hTwo := table.roster.two_le_length
  change 2 ≤ (table.roster.seats.map Prod.snd).length
  rw [List.length_map]
  exact hTwo

/- Seats and stage are in order. -/
def Config.InOrder
    (c : Config) : Prop :=
  c.Seated ∧ c.Staged

theorem Config.InOrder.step
    {c d : Config}
    {e : Event}
    (hOrder : c.InOrder)
    (hOk : c.step e = .ok d) :
    d.InOrder := by
  have hStep := step_of_ok hOk
  exact ⟨hOrder.1.step hStep, hOrder.2.step hOrder.1 hStep⟩

theorem Table.opening_inOrder
    (table : Table) :
    table.opening.InOrder :=
  ⟨table.opening_seated, table.opening_staged⟩

/- Seats and stage are in order at every point of a run. -/
theorem Table.Run.inOrder
    {table : Table}
    {trace : List (Config × Event)}
    {c : Config}
    (run : table.Run trace c) :
    c.InOrder :=
  run.invariant_of_step
    (fun _ _ _ hOrder hOk => hOrder.step hOk)
    table.opening_inOrder

end Server

end Poker

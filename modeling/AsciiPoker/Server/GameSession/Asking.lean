import AsciiPoker.Server.GameSession.Turns

/-
  A player is only asked while a hand is in progress.

  After a showdown the betting round stays closed, whoever
  leaves, so nobody is asked before the next hand is dealt.
  Only an action could open it again.

  Main declarations:
    * `GameSession.isRoundComplete_iff`
    * `Config.AsksInHand`, `Config.AsksInHand.step`
    * `Config.AsksInHand.inProgress`
-/

namespace Poker

namespace Server

open Protocol

------------------------------------------------------------
-- Closed Rounds
------------------------------------------------------------

namespace GameSession

variable {s t : GameSession}
variable {p q : PlayerId}
variable {leaver : Leaver}

/- The round does not wait for this player. -/
def Through
    (s : GameSession)
    (p : PlayerId) : Prop :=
  p ∈ s.foldedPlayers ∨
    ∃ bet, s.roundBets.find p = some bet ∧
      ¬ (bet < s.currentBet ∧ p ∉ s.allInPlayers) ∧
      ¬ (s.canPlayerAct p ∧ p ∉ s.playersActed)

theorem roundCompleteLoop_iff
    (ps : List PlayerId) :
    s.roundCompleteLoop ps = .ok true ↔
      ∀ p ∈ ps, s.Through p := by
  induction ps with
  | nil => simp [roundCompleteLoop]
  | cons p ps ih =>
      rw [List.forall_mem_cons]
      unfold roundCompleteLoop
      split
      next hFolded =>
        rw [ih]
        exact (and_iff_right (Or.inl hFolded)).symm
      next hIn =>
        have hThrough : s.Through p ↔
            ∃ bet, s.roundBets.find p = some bet ∧
              ¬ (bet < s.currentBet ∧ p ∉ s.allInPlayers) ∧
              ¬ (s.canPlayerAct p ∧ p ∉ s.playersActed) :=
          or_iff_right hIn
        rw [hThrough]
        cases hBet : s.roundBets.find p with
        | none => simp [require]
        | some bet =>
            by_cases hLow :
                bet < s.currentBet ∧ p ∉ s.allInPlayers
            · simp [require, hLow]
            · by_cases hWait :
                  s.canPlayerAct p ∧ p ∉ s.playersActed
              · simp [require, hLow, hWait]
              · simp only [require, if_neg hLow,
                  if_neg hWait, ih]
                exact (and_iff_right
                  ⟨bet, rfl, hLow, hWait⟩).symm

/- A round is closed when it waits for nobody. -/
theorem isRoundComplete_iff :
    s.isRoundComplete = .ok true ↔
      s.countActivePlayers ≤ 1 ∨
        ∀ p ∈ s.players, s.Through p := by
  unfold isRoundComplete
  split
  next hFew => simp [hFew]
  next hMany =>
    rw [or_iff_right hMany]
    exact roundCompleteLoop_iff s.players

/-
  A closed round stays closed if nobody becomes active and
  whoever stays is still not waited for.
-/
theorem complete_of_complete
    (hComplete : s.isRoundComplete = .ok true)
    (hCount : t.countActivePlayers ≤ s.countActivePlayers)
    (hPlayers : ∀ p ∈ t.players,
      p ∈ s.players ∧ (s.Through p → t.Through p)) :
    t.isRoundComplete = .ok true := by
  rw [isRoundComplete_iff] at hComplete ⊢
  rcases hComplete with hFew | hAll
  · exact Or.inl (Nat.le_trans hCount hFew)
  · refine Or.inr fun p hMem => ?_
    rcases hPlayers p hMem with ⟨hStayed, hThrough⟩
    exact hThrough (hAll p hStayed)

/- Nothing is left of the bets, so nobody is behind. -/
theorem complete_clearBets
    (hComplete : s.isRoundComplete = .ok true) :
    s.clearBets.isRoundComplete = .ok true := by
  refine complete_of_complete hComplete (Nat.le_refl _) ?_
  intro p hMem
  refine ⟨hMem, ?_⟩
  rintro (hFolded | ⟨bet, hBet, _, hActed⟩)
  · exact Or.inl hFolded
  · refine Or.inr ⟨0, ?_, ?_, hActed⟩
    · change (s.roundBets.mapValues fun _ => 0).find p = _
      rw [KeyMap.find_mapValues, hBet]
      rfl
    · rintro ⟨hLess, _⟩
      exact absurd hLess (by simp [clearBets])

theorem complete_foldLeaver
    (hNodup : s.players.Nodup)
    (hComplete : s.isRoundComplete = .ok true) :
    (s.foldLeaver q).isRoundComplete = .ok true := by
  refine complete_of_complete hComplete
    (countActivePlayers_foldLeaver q hNodup).2 ?_
  intro p hMem
  refine ⟨hMem, ?_⟩
  rintro (hFolded | ⟨bet, hBet, hLevel, hActed⟩)
  · exact Or.inl (Finset.mem_insert_of_mem hFolded)
  · refine Or.inr ⟨bet, hBet, hLevel, ?_⟩
    rintro ⟨hAct, hNew⟩
    refine hActed ⟨⟨?_, hAct.2⟩, hNew⟩
    exact fun hIn => hAct.1 (Finset.mem_insert_of_mem hIn)

/- The rest of the table is as it was. -/
theorem through_vacate
    (hOther : p ≠ leaver.player) :
    (s.vacate leaver).Through p ↔ s.Through p := by
  rcases s.vacate_eq leaver with ⟨_, _, hEq, _⟩
  rw [hEq]
  unfold Through canPlayerAct
  simp only [Finset.mem_erase, ne_eq, hOther,
    not_false_eq_true, true_and, KeyMap.find_erase, if_false]

theorem complete_vacate
    (hNodup : s.players.Nodup)
    (hAt : s.players[leaver.removedIndex]? =
      some leaver.player)
    (hFolded : leaver.player ∈ s.foldedPlayers) :
    (s.vacate leaver).isRoundComplete = .ok true ↔
      s.isRoundComplete = .ok true := by
  rw [isRoundComplete_iff, isRoundComplete_iff,
    countActivePlayers_vacate hNodup hAt hFolded,
    vacate_players]
  refine or_congr_right ⟨fun hAll p hMem => ?_,
    fun hAll p hMem => ?_⟩
  · by_cases hLeaver : p = leaver.player
    · rw [hLeaver]
      exact Or.inl hFolded
    · exact (through_vacate hLeaver).mp (hAll p
        ((mem_eraseIdx hNodup hAt).mpr ⟨hMem, hLeaver⟩))
  · rcases (mem_eraseIdx hNodup hAt).mp hMem with
      ⟨hSeated, hOther⟩
    exact (through_vacate hOther).mpr (hAll p hSeated)

end GameSession

------------------------------------------------------------
-- Questions
------------------------------------------------------------

/-
  Whoever may be asked is in a hand, and after a showdown
  the round is closed.
-/
def Config.AsksInHand
    (c : Config) : Prop :=
  match c.pending with
  | .askCurrentPlayer =>
      c.session.phase ≠ .showdown ∧
        c.session.countActivePlayers ≠ 1
  | .nextPhase => c.session.isRoundComplete = .ok true
  | .doShowdown => c.session.isRoundComplete = .ok true
  | .start => True
  | _ =>
      c.session.phase = .showdown →
        c.session.isRoundComplete = .ok true

/- What goes on before a showdown is in a hand. -/
theorem GameSession.Closes.asksInHand
    {s : GameSession}
    {pending : Pending}
    (hCloses : s.Closes pending)
    (hNot : s.isRoundComplete = .ok false →
      s.phase ≠ .showdown) :
    Config.AsksInHand ⟨s, pending⟩ := by
  rcases hCloses with ⟨hComplete, rfl⟩ | ⟨hOpen, rfl⟩
  · exact hComplete
  · have hTwo := GameSession.two_le_of_open hOpen
    refine ⟨hNot hOpen, ?_⟩
    dsimp only
    omega

/-
  Every step keeps it so, if nobody acts after a showdown.
-/
theorem Config.AsksInHand.step
    {c d : Config}
    {e : Event}
    (hOrder : c.InOrder)
    (hAsks : c.AsksInHand)
    (hActs : ∀ connection action amount,
      e = .applyAction connection action amount →
      c.session.phase ≠ .showdown)
    (hStep : Step c e d) :
    d.AsksInHand := by
  have hNodup := hOrder.1.nodup
  have hLeaver := hOrder.1.leaver
  have hStaged := hOrder.2
  cases hStep with
  | @started s dealt posted t shuffle hDealt hPosted hQuiet =>
      rcases hQuiet with ⟨_, _, rfl, _⟩
      rcases GameSession.started_dealtIn hDealt hPosted with
        ⟨hPlayers, hNobody, _⟩
      have hTwo : 2 ≤ s.players.length := hStaged.1
      refine ⟨by simp [GameSession.openPreFlop], ?_⟩
      change posted.countActivePlayers ≠ 1
      rw [GameSession.countActivePlayers_of_empty hNobody,
        hPlayers]
      omega
  | asked hAt hAct => exact fun h => absurd h hAsks.1
  | passedOver hAt hAct hCloses =>
      exact hCloses.asksInHand fun _ => hAsks.1
  | wonByFold hOne => exact fun _ => hAsks
  | street hMany hPhase hDeal hQuiet =>
      rcases hQuiet with ⟨_, _, rfl, _⟩
      refine ⟨?_, hMany⟩
      simp only [List.mem_cons, Prod.mk.injEq,
        List.not_mem_nil, or_false] at hPhase
      rcases hPhase with
        ⟨_, _, rfl⟩ | ⟨_, _, rfl⟩ | ⟨_, _, rfl⟩
      · simp [GameSession.openStreet]
      · simp [GameSession.openStreet]
      · simp [GameSession.openStreet]
  | riverClosed hMany hPhase =>
      exact GameSession.complete_clearBets hAsks
  | pastShowdown hMany hPhase =>
      exact fun _ => GameSession.complete_clearBets hAsks
  | @shownDown s t pending shuffle hQuiet hPending =>
      rcases hQuiet with ⟨bankrolls, log, rfl, _⟩
      have hComplete : GameSession.isRoundComplete { s with
          phase := .showdown
          bankrolls := bankrolls
          log := log } = .ok true :=
        GameSession.complete_of_complete hAsks
          (Nat.le_refl _) fun p hMem => ⟨hMem, id⟩
      rcases hPending with ⟨_, rfl⟩ | ⟨_, rfl⟩ | ⟨_, rfl⟩
      · exact fun _ => hComplete
      · exact fun _ => hComplete
      · exact fun _ => hComplete
  | singleWinner => exact hAsks
  | awardedNothing hEmpty => exact hAsks
  | awarded hFull hPaid hQuiet =>
      rcases GameSession.payPots_frame hPaid with
        ⟨chips, hEq⟩
      rcases hQuiet with ⟨_, _, rfl, _⟩
      rw [hEq]
      intro hPhase
      exact GameSession.complete_of_complete (hAsks hPhase)
        (Nat.le_refl _) fun p hMem => ⟨hMem, id⟩
  | handOver hEnough hChips => trivial
  | gameOver hOver => exact hAsks
  | @leftFew s t leaver shuffle hFew hErased =>
      intro _
      have hLe : t.countActivePlayers ≤ t.players.length :=
        List.countP_le_length
      unfold GameSession.hasEnoughPlayers at hFew
      exact GameSession.isRoundComplete_iff.mpr
        (Or.inl (by dsimp only; omega))
  | leftOneActive hEnough hOne =>
      intro _
      exact GameSession.isRoundComplete_iff.mpr
        (Or.inl (Nat.le_of_eq hOne))
  | @leftClosing s leaver pending shuffle hEnough hMany
      hCloses =>
      rcases hLeaver leaver rfl with ⟨hAt, hFolded⟩
      apply hCloses.asksInHand
      intro hOpen hPhase
      rw [GameSession.vacate_phase] at hPhase
      rw [(GameSession.complete_vacate hNodup hAt hFolded).mpr
        (hAsks hPhase)] at hOpen
      cases hOpen
  | @leftWaiting s t leaver shuffle hEnough hMany hOther hOpen
      hQuiet =>
      rcases hLeaver leaver rfl with ⟨hAt, hFolded⟩
      rcases hQuiet with ⟨_, _, rfl, _⟩
      intro hPhase
      change (s.vacate leaver).phase = _ at hPhase
      rw [GameSession.vacate_phase] at hPhase
      rw [(GameSession.complete_vacate hNodup hAt hFolded).mpr
        (hAsks hPhase)] at hOpen
      cases hOpen
  | unmapped hEnough hNone => exact hAsks
  | rejected hEnough hPlayer =>
      exact fun h => absurd h (hActs _ _ _ rfl)
  | wonByAction hEnough hPlayer hAt hActs' hQuiet hOne =>
      rcases hQuiet with ⟨_, _, rfl, _⟩
      intro hPhase
      have hSame := hActs'.frame.2.2.1
      exact absurd (hSame.symm.trans hPhase)
        (hActs _ _ _ rfl)
  | acted hEnough hPlayer hAt hActs' hQuiet hMany hCloses =>
      rcases hQuiet with ⟨_, _, rfl, _⟩
      apply hCloses.asksInHand
      intro _ hPhase
      have hSame := hActs'.frame.2.2.1
      exact absurd (hSame.symm.trans hPhase)
        (hActs _ _ _ rfl)
  | notSeated hEnough hNone => exact hAsks
  | @leaving s l current pending hEnough hPlayer hAt hCurrent
      hWas hPending =>
      have hFold : (s.foldLeaver l.player).phase = .showdown →
          (s.foldLeaver l.player).isRoundComplete =
            .ok true :=
        fun hPhase => GameSession.complete_foldLeaver hNodup
          (hAsks hPhase)
      rcases hPending with ⟨_, rfl⟩ | ⟨_, rfl⟩
      · exact hFold
      · exact hFold

/- A player who is asked and can act is in a hand. -/
theorem Config.AsksInHand.inProgress
    {s : GameSession}
    {p : PlayerId}
    (hAsks : Config.AsksInHand ⟨s, .askCurrentPlayer⟩)
    (hAt : s.players[s.currentPlayerIndex]? = some p)
    (hAct : s.canPlayerAct p) :
    s.InProgress := by
  have hOne := GameSession.one_le_of_canPlayerAct hAt hAct
  have hMany : s.countActivePlayers ≠ 1 := hAsks.2
  exact ⟨hAsks.1, by omega⟩

end Server

end Poker

import AsciiPoker.Server.GameSession.Bets
import AsciiPoker.Server.GameSession.GameOver
import AsciiPoker.Server.GameSession.HandEnds

/-
  What the player on turn is offered, and what is accepted
  from him.

  `ask_current_player` and `apply_action` state the rules of
  betting twice.  While the chips at the table fit a word
  with room to spare, whatever the first offers the second
  accepts.

  Main declarations:
    * `YourTurn.Offers`
    * `GameSession.Staked`, `Config.Live`
    * `GameSession.Honours`
    * `Table.Run.honours_offer`
    * `GameSession.WithinOffer`
    * `Table.Run.accepted_offered_iff`
-/

------------------------------------------------------------
-- Offers
------------------------------------------------------------

namespace Poker

namespace Protocol

/- The turn offers an action, a raise within its range. -/
def YourTurn.Offers
    (turn : YourTurn)
    (action : Action)
    (amount : Option UInt32) : Prop :=
  action ∈ turn.availableActions ∧
    (action = .raise → ∃ total ∈ amount,
      turn.minAmount ≤ total ∧ total ≤ turn.maxAmount)

instance
    (turn : YourTurn)
    (action : Action)
    (amount : Option UInt32) :
    Decidable (turn.Offers action amount) :=
  inferInstanceAs (Decidable (_ ∧ (_ → _)))

end Protocol

namespace Server

open Protocol

namespace GameSession

section Available

variable {s : GameSession}
variable {p : PlayerId}

theorem fold_mem_yourTurn :
    .fold ∈ (s.yourTurn p).availableActions := by
  simp [yourTurn]

theorem check_mem_yourTurn :
    .check ∈ (s.yourTurn p).availableActions ↔
      s.currentBet - s.roundBets.get p = 0 := by
  simp only [yourTurn, List.mem_append]
  split <;> split <;> simp_all

theorem call_mem_yourTurn :
    .call ∈ (s.yourTurn p).availableActions ↔
      s.currentBet - s.roundBets.get p ≠ 0 ∧
        0 < s.chips.get p := by
  simp only [yourTurn, List.mem_append]
  split <;> split <;> simp_all

theorem raise_mem_yourTurn :
    .raise ∈ (s.yourTurn p).availableActions ↔
      s.currentBet - s.roundBets.get p < s.chips.get p ∧
        s.currentBet + s.lastRaiseIncrement ≤
          s.roundBets.get p + s.chips.get p := by
  simp only [yourTurn, List.mem_append]
  split <;> split <;> simp_all

end Available

------------------------------------------------------------
-- The Stakes of a Hand
------------------------------------------------------------

theorem BIG_BLIND_pos : 0 < BIG_BLIND := by
  decide

/- No bet of a round exceeds what its player has put in. -/
def BetsIn
    (s : GameSession) : Prop :=
  ∀ p ∈ s.players,
    s.roundBets.get p ≤ s.totalContributed.get p

/- The bets of a hand at a table of `total` chips. -/
structure Staked
    (s : GameSession)
    (total : Nat) : Prop where
  betsIn : s.BetsIn
  currentBet_le : s.currentBet.toNat ≤ total
  increment_pos : 0 < s.lastRaiseIncrement
  increment_le :
    s.lastRaiseIncrement.toNat ≤ max BIG_BLIND.toNat total

/- What a player has put in is part of the pot. -/
theorem Solvent.totalContributed_le
    {s : GameSession}
    {p : PlayerId}
    (hSolvent : s.Solvent)
    (hSeated : p ∈ s.players) :
    (s.totalContributed.get p).toNat ≤ s.pot.toNat := by
  have hMine : (s.totalContributed.get p).toNat ≤
      s.stakes.sum :=
    List.le_sum_map
      (fun p => (s.totalContributed.get p).toNat) hSeated
  exact Nat.le_trans hMine hSolvent.1

/- A player can go all-in without wrapping around. -/
theorem BetsIn.allIn_le
    {s : GameSession}
    {p : PlayerId}
    (hBets : s.BetsIn)
    (hSolvent : s.Solvent)
    (hDealtIn : ∀ p ∈ s.players, (s.chips.find p).isSome)
    (hSeated : p ∈ s.players) :
    (s.roundBets.get p).toNat + (s.chips.get p).toNat ≤
      s.worth := by
  have hBet := UInt32.le_iff_toNat_le.mp (hBets p hSeated)
  have hPot := hSolvent.totalContributed_le hSeated
  have hStack := chips_le_seatedStacks hDealtIn hSeated
  unfold worth
  omega

theorem BetsIn.contribute
    {s : GameSession}
    {p : PlayerId}
    (amount : UInt32)
    (hBets : s.BetsIn)
    (hSolvent : s.Solvent)
    (hDealtIn : ∀ p ∈ s.players, (s.chips.find p).isSome)
    (hSeated : p ∈ s.players) :
    (s.contribute p amount).BetsIn := by
  intro q hq
  rw [(s.contribute_frame p amount).1] at hq
  rw [contribute_roundBets, contribute_totalContributed,
    KeyMap.get_set, KeyMap.get_set]
  by_cases hEq : q = p
  · rw [if_pos hEq, if_pos hEq]
    have hBet := UInt32.le_iff_toNat_le.mp (hBets p hSeated)
    have hPot := hSolvent.totalContributed_le hSeated
    have hStack := chips_le_seatedStacks hDealtIn hSeated
    have hTaken := UInt32.le_iff_toNat_le.mp
      (s.actualAmount_le_chips p amount)
    have hWorth := hSolvent.2
    unfold worth at hWorth
    rw [UInt32.le_iff_toNat_le,
      UInt32.toNat_add_of_lt (by omega),
      UInt32.toNat_add_of_lt (by omega)]
    omega
  · rw [if_neg hEq, if_neg hEq]
    exact hBets q hq

/- An accepted action keeps the stakes in order. -/
theorem Staked.acts
    {s t : GameSession}
    {p : PlayerId}
    {action : Action}
    {amount : Option UInt32}
    {total : Nat}
    (hStaked : s.Staked total)
    (hSolvent : s.Solvent)
    (hWorth : s.worth ≤ total)
    (hDealtIn : ∀ p ∈ s.players, (s.chips.find p).isSome)
    (hSeated : p ∈ s.players)
    (hActs : s.Acts p action amount t) :
    t.Staked total := by
  cases hActs with
  | fold =>
      exact ⟨hStaked.betsIn, hStaked.currentBet_le,
        hStaked.increment_pos, hStaked.increment_le⟩
  | check => exact hStaked
  | callNothing => exact hStaked
  | call hOwed =>
      have hLevel := (s.contribute_frame p
        (s.currentBet - s.roundBets.get p)).2.2.2.2.2.1
      refine ⟨hStaked.betsIn.contribute _ hSolvent hDealtIn
        hSeated, ?_, ?_, ?_⟩
      · rw [hLevel]
        exact hStaked.currentBet_le
      · rw [contribute_lastRaiseIncrement]
        exact hStaked.increment_pos
      · rw [contribute_lastRaiseIncrement]
        exact hStaked.increment_le
  | @raise bet hHigher hMore hMinimum hEnough =>
      have hAll := hStaked.betsIn.allIn_le hSolvent hDealtIn
        hSeated
      have hPut := UInt32.toNat_sub_add_toNat
        (UInt32.le_of_lt hMore)
      have hLe := UInt32.le_iff_toNat_le.mp hEnough
      have hRise := UInt32.toNat_sub_add_toNat
        (UInt32.le_of_lt hHigher)
      have hLt := UInt32.lt_iff_toNat_lt.mp hHigher
      refine ⟨hStaked.betsIn.contribute _ hSolvent hDealtIn
        hSeated, ?_, ?_, ?_⟩
      · change bet.toNat ≤ total
        omega
      · change 0 < bet - s.currentBet
        rw [UInt32.pos_iff_toNat_pos]
        omega
      · change (bet - s.currentBet).toNat ≤ _
        omega

theorem Staked.vacate
    {s : GameSession}
    {leaver : Leaver}
    {total : Nat}
    (hStaked : s.Staked total)
    (hNodup : s.players.Nodup)
    (hAt : s.players[leaver.removedIndex]? =
      some leaver.player) :
    (s.vacate leaver).Staked total := by
  have hBets : (s.vacate leaver).BetsIn := by
    intro p hp
    rw [vacate_players] at hp
    rcases (mem_eraseIdx hNodup hAt).mp hp with ⟨hMem, hNe⟩
    rw [vacate_roundBets, vacate_totalContributed,
      KeyMap.get_erase_of_ne _ hNe,
      KeyMap.get_erase_of_ne _ hNe]
    exact hStaked.betsIn p hMem
  rcases s.vacate_eq leaver with ⟨_, _, hEq, _⟩
  rw [hEq] at hBets ⊢
  exact ⟨hBets, hStaked.currentBet_le,
    hStaked.increment_pos, hStaked.increment_le⟩

/- Cleared bets are in the pot in any case. -/
theorem clearBets_staked
    (s : GameSession)
    (total : Nat) :
    s.clearBets.Staked total where
  betsIn := fun p _ => by
    have hZero : s.clearBets.roundBets.get p = 0 :=
      KeyMap.get_mapValues_default s.roundBets p
    rw [hZero]
    exact UInt32.zero_le
  currentBet_le := Nat.zero_le _
  increment_pos := BIG_BLIND_pos
  increment_le := Nat.le_max_left _ _

/- The bet to match is the bet of the big blind. -/
theorem BetsIn.staked
    {s : GameSession}
    {bigBlind : PlayerId}
    {total : Nat}
    (hBets : s.BetsIn)
    (hSolvent : s.Solvent)
    (hWorth : s.worth ≤ total)
    (hSeated : bigBlind ∈ s.players)
    (hIncrement : s.lastRaiseIncrement = BIG_BLIND) :
    Staked { s with
      currentBet := s.roundBets.get bigBlind } total := by
  have hBet := UInt32.le_iff_toNat_le.mp
    (hBets bigBlind hSeated)
  have hPut := hSolvent.totalContributed_le hSeated
  unfold worth at hWorth
  refine ⟨hBets, ?_, ?_, ?_⟩
  · dsimp only
    omega
  · dsimp only
    rw [hIncrement]
    exact BIG_BLIND_pos
  · dsimp only
    rw [hIncrement]
    exact Nat.le_max_left _ _

/- The stakes of a freshly dealt hand. -/
theorem Dealt.staked
    {s dealt posted : GameSession}
    {shuffle : Shuffle}
    {total : Nat}
    (hDealt : s.Dealt shuffle dealt)
    (hPosted : dealt.postBlinds = .ok posted)
    (hNodup : s.players.Nodup)
    (hPot : s.pot = 0)
    (hFits : s.worth < 2 ^ 32)
    (hWorth : s.worth ≤ total) :
    posted.Staked total := by
  have hBefore := hDealt.beforeBlinds hPot hFits
  have hIncrement : dealt.lastRaiseIncrement = BIG_BLIND := by
    rcases hDealt.spec with ⟨_, _, _, _, _, rfl, _⟩
    rfl
  rcases blinds_of_ok hPosted with ⟨sb, bb, hSb, hBb, rfl⟩
  have hSbSeated := List.mem_of_getElem? hSb
  have hStart : dealt.BetsIn := by
    intro p hp
    rw [hBefore.noBets p hp]
    exact UInt32.zero_le
  rw [← hBefore.players_eq] at hNodup
  have hSmall := hBefore.solvent.contribute SMALL_BLIND
    hNodup hBefore.dealtIn hSbSeated
  have hSmallBets := hStart.contribute SMALL_BLIND
    hBefore.solvent hBefore.dealtIn hSbSeated
  have hPlayers :=
    (dealt.contribute_frame sb SMALL_BLIND).1
  have hSome : ∀ p ∈ (dealt.contribute sb SMALL_BLIND).players,
      ((dealt.contribute sb SMALL_BLIND).chips.find
        p).isSome := by
    rw [hPlayers]
    exact fun p hp =>
      contribute_isSome _ sb _ (hBefore.dealtIn p hp)
  have hBbSeated :
      bb ∈ (dealt.contribute sb SMALL_BLIND).players := by
    rw [hPlayers]
    exact List.mem_of_getElem? hBb
  have hBig := hSmall.1.contribute BIG_BLIND
    (hPlayers ▸ hNodup) hSome hBbSeated
  have hBigBets := hSmallBets.contribute BIG_BLIND hSmall.1
    hSome hBbSeated
  refine hBigBets.staked hBig.1 ?_ ?_ ?_
  · rw [hBig.2, hSmall.2, hBefore.worth_eq]
    exact hWorth
  · rw [(contribute_frame _ bb _).1]
    exact hBbSeated
  · rw [contribute_lastRaiseIncrement,
      contribute_lastRaiseIncrement]
    exact hIncrement

end GameSession

------------------------------------------------------------
-- Runs
------------------------------------------------------------

/- A hand in progress whose bets are still on the table. -/
def Config.Live
    (c : Config) : Prop :=
  match c.pending with
  | .done => c.session.InProgress
  | .askCurrentPlayer => c.session.InProgress
  | .nextPhase => c.session.InProgress
  | .resume (.finishRemoval _) => c.session.InProgress
  | .resume .tryStartNewHand => False
  | .start => False
  | .doShowdown => False
  | .handleSingleWinner => False
  | .awardAllPots _ => False

theorem GameSession.Closes.live
    {s : GameSession}
    {pending : Pending}
    (hCloses : s.Closes pending)
    (hLive : Config.Live ⟨s, pending⟩) :
    s.InProgress := by
  rcases hCloses with ⟨_, rfl⟩ | ⟨_, rfl⟩
  · exact hLive
  · exact hLive

/- The hand went on before a leaver's seat was cleared. -/
theorem GameSession.InProgress.of_vacate
    {s : GameSession}
    {leaver : Leaver}
    (hNodup : s.players.Nodup)
    (hAt : s.players[leaver.removedIndex]? =
      some leaver.player)
    (hFolded : leaver.player ∈ s.foldedPlayers)
    (hProgress : (s.vacate leaver).InProgress) :
    s.InProgress := by
  rcases hProgress with ⟨hNot, hTwo⟩
  rw [vacate_phase] at hNot
  rw [countActivePlayers_vacate hNodup hAt hFolded] at hTwo
  exact ⟨hNot, hTwo⟩

/- Who is in the hand is as he was, but for one fold. -/
theorem GameSession.InProgress.of_acts
    {s t : GameSession}
    {p : PlayerId}
    {action : Action}
    {amount : Option UInt32}
    (hActs : s.Acts p action amount t)
    (hNodup : s.players.Nodup)
    (hProgress : t.InProgress) :
    s.InProgress := by
  refine ⟨?_, ?_⟩
  · rw [← hActs.frame.2.2.1]
    exact hProgress.1
  · have hTwo := hProgress.2
    rcases hActs.foldedPlayers_eq with hSame | rfl
    · have hCount : t.countActivePlayers =
          s.countActivePlayers := by
        unfold GameSession.countActivePlayers
        rw [hActs.frame.1, hSame]
      rw [hCount] at hTwo
      exact hTwo
    · exact Nat.le_trans hTwo
        (countActivePlayers_foldLeaver p hNodup).2

/- Seats, chips and bets are the same. -/
structure GameSession.SameBets
    (s t : GameSession) : Prop where
  players_eq : t.players = s.players
  chips_eq : t.chips = s.chips
  roundBets_eq : t.roundBets = s.roundBets
  total_eq : t.totalContributed = s.totalContributed
  currentBet_eq : t.currentBet = s.currentBet
  increment_eq : t.lastRaiseIncrement = s.lastRaiseIncrement

/-
  Where the bets of a hand come from in one step: the deal,
  the step before, a new street, an action or a departure.
-/
inductive Config.BetsFrom
    (c : Config) : GameSession → Prop
  | dealt
      {dealt posted : GameSession}
      {shuffle : Shuffle}
      (hStart : c.pending = .start)
      (hDealt : c.session.Dealt shuffle dealt)
      (hPosted : dealt.postBlinds = .ok posted) :
      BetsFrom c posted
  | kept
      (hLive : c.Live) :
      BetsFrom c c.session
  | cleared :
      BetsFrom c c.session.clearBets
  | acted
      {t : GameSession}
      {p : PlayerId}
      {action : Action}
      {amount : Option UInt32}
      (hLive : c.Live)
      (hRest : c.pending = .done)
      (hSeated : p ∈ c.session.players)
      (hActs : c.session.Acts p action amount t) :
      BetsFrom c t
  | vacated
      {leaver : Leaver}
      (hLive : c.Live)
      (hLeaves : c.pending = .resume (.finishRemoval leaver)) :
      BetsFrom c (c.session.vacate leaver)

/- Where the bets of a hand that goes on come from. -/
theorem Step.betsFrom
    {c d : Config}
    {e : Event}
    (hOrder : c.InOrder)
    (hStep : Step c e d)
    (hLive : d.Live) :
    ∃ t, c.BetsFrom t ∧ t.SameBets d.session := by
  have hNodup := hOrder.1.nodup
  have hLeaver := hOrder.1.leaver
  have hStaged := hOrder.2
  cases hStep with
  | started hDealt hPosted hQuiet =>
      rcases hQuiet with ⟨_, _, rfl, _⟩
      exact ⟨_, .dealt rfl hDealt hPosted,
        ⟨rfl, rfl, rfl, rfl, rfl, rfl⟩⟩
  | asked hAt hAct =>
      exact ⟨_, .kept hLive, ⟨rfl, rfl, rfl, rfl, rfl, rfl⟩⟩
  | passedOver hAt hAct hCloses =>
      exact ⟨_, .kept (hCloses.live hLive),
        ⟨rfl, rfl, rfl, rfl, rfl, rfl⟩⟩
  | wonByFold hOne => exact absurd hLive id
  | street hMany hPhase hDeal hQuiet =>
      rcases hQuiet with ⟨_, _, rfl, _⟩
      exact ⟨_, .cleared, ⟨rfl, rfl, rfl, rfl, rfl, rfl⟩⟩
  | riverClosed hMany hPhase => exact absurd hLive id
  | pastShowdown hMany hPhase => exact absurd hPhase hLive.1
  | shownDown hQuiet hPending =>
      rcases hPending with ⟨_, rfl⟩ | ⟨_, rfl⟩ | ⟨_, rfl⟩
      · exact absurd hLive id
      · exact absurd hLive id
      · exact absurd hLive id
  | singleWinner => exact absurd hLive id
  | @awardedNothing s next shuffle hEmpty =>
      cases next with
      | tryStartNewHand => exact absurd hLive id
      | finishRemoval l =>
          -- The award of a leaver's fold leaves one active.
          have hOne : s.countActivePlayers = 1 := hStaged
          have hTwo : 2 ≤ s.countActivePlayers := hLive.2
          omega
  | @awarded s t award next shuffle hFull hPaid hQuiet =>
      cases next with
      | tryStartNewHand => exact absurd hLive id
      | finishRemoval l =>
          have hOne : s.countActivePlayers = 1 := hStaged
          rcases GameSession.payPots_frame hPaid with
            ⟨chips, hEq⟩
          rcases hQuiet with ⟨_, _, rfl, _⟩
          have hTwo := hLive.2
          rw [hEq] at hTwo
          change 2 ≤ s.countActivePlayers at hTwo
          omega
  | handOver hEnough hChips => exact absurd hLive id
  | gameOver hOver =>
      rcases hLive with ⟨hNot, hTwo⟩
      rcases hStaged with ⟨_, hShowdown | hOne⟩
      · exact absurd hShowdown hNot
      · dsimp only at hOne hTwo
        omega
  | @leftFew s t leaver shuffle hFew hErased =>
      have hTwo : 2 ≤ t.countActivePlayers := hLive.2
      have hLe : t.countActivePlayers ≤ t.players.length :=
        List.countP_le_length
      unfold GameSession.hasEnoughPlayers at hFew
      omega
  | leftOneActive hEnough hOne => exact absurd hLive id
  | @leftClosing s leaver pending shuffle hEnough hMany
      hCloses =>
      rcases hLeaver leaver rfl with ⟨hAt, hFolded⟩
      have hProgress := GameSession.InProgress.of_vacate hNodup
        hAt hFolded (hCloses.live hLive)
      exact ⟨_, .vacated hProgress rfl,
        ⟨rfl, rfl, rfl, rfl, rfl, rfl⟩⟩
  | @leftWaiting s t leaver shuffle hEnough hMany hOther hOpen
      hQuiet =>
      rcases hLeaver leaver rfl with ⟨hAt, hFolded⟩
      rcases hQuiet with ⟨_, _, rfl, _⟩
      have hProgress := GameSession.InProgress.of_vacate hNodup
        hAt hFolded hLive
      exact ⟨_, .vacated hProgress rfl,
        ⟨rfl, rfl, rfl, rfl, rfl, rfl⟩⟩
  | unmapped hEnough hNone =>
      exact ⟨_, .kept hLive, ⟨rfl, rfl, rfl, rfl, rfl, rfl⟩⟩
  | rejected hEnough hPlayer =>
      exact ⟨_, .kept hLive, ⟨rfl, rfl, rfl, rfl, rfl, rfl⟩⟩
  | wonByAction hEnough hPlayer hAt hActs hQuiet hOne =>
      exact absurd hLive id
  | acted hEnough hPlayer hAt hActs hQuiet hMany hCloses =>
      rcases hQuiet with ⟨_, _, rfl, _⟩
      have hProgress := GameSession.InProgress.of_acts hActs
        hNodup (hCloses.live hLive)
      exact ⟨_, .acted hProgress rfl
        (List.mem_of_getElem? hAt) hActs,
        ⟨rfl, rfl, rfl, rfl, rfl, rfl⟩⟩
  | notSeated hEnough hNone =>
      exact ⟨_, .kept hLive, ⟨rfl, rfl, rfl, rfl, rfl, rfl⟩⟩
  | @leaving s leaver current pending hEnough hPlayer hAt
      hCurrent hWas hPending =>
      rcases hPending with ⟨_, rfl⟩ | ⟨_, rfl⟩
      · exact absurd hLive id
      · have hProgress : s.InProgress :=
          ⟨hLive.1, Nat.le_trans hLive.2
            (GameSession.countActivePlayers_foldLeaver
              leaver.player hNodup).2⟩
        exact ⟨_, .kept hProgress,
          ⟨rfl, rfl, rfl, rfl, rfl, rfl⟩⟩

theorem GameSession.SameBets.staked
    {s t : GameSession}
    {total : Nat}
    (hSame : s.SameBets t)
    (hStaked : s.Staked total) :
    t.Staked total where
  betsIn := by
    unfold GameSession.BetsIn
    rw [hSame.players_eq, hSame.roundBets_eq, hSame.total_eq]
    exact hStaked.betsIn
  currentBet_le := by
    rw [hSame.currentBet_eq]
    exact hStaked.currentBet_le
  increment_pos := by
    rw [hSame.increment_eq]
    exact hStaked.increment_pos
  increment_le := by
    rw [hSame.increment_eq]
    exact hStaked.increment_le

/- While a hand is being bet on, its stakes are in order. -/
theorem GameSession.Staked.step
    {c d : Config}
    {e : Event}
    {total : Nat}
    (hAccounted : c.Accounted)
    (hWorth : c.session.worth ≤ total)
    (hStaked : c.Live → c.session.Staked total)
    (hStep : Step c e d)
    (hLive : d.Live) :
    d.session.Staked total := by
  rcases hAccounted with ⟨hOrder, hSolvent⟩
  have hNodup := hOrder.1.nodup
  rcases hStep.betsFrom hOrder hLive with ⟨t, hFrom, hSame⟩
  apply hSame.staked
  cases hFrom with
  | dealt hStart hDealt hPosted =>
      have hStaged := hOrder.2
      unfold Config.Staged at hStaged
      rw [hStart] at hStaged
      exact hDealt.staked hPosted hNodup hStaged.2 hSolvent.2
        hWorth
  | kept hLive => exact hStaked hLive
  | cleared => exact c.session.clearBets_staked total
  | acted hLive hRest hSeated hActs =>
      have hDealtIn := (hOrder.1.dealtIn (by simp [hRest])).2
      exact (hStaked hLive).acts hSolvent hWorth hDealtIn
        hSeated hActs
  | @vacated leaver hLive hLeaves =>
      have hAt := (hOrder.1.leaver leaver (by
        rw [hLeaves]
        rfl)).1
      exact (hStaked hLive).vacate hNodup hAt

section Runs

variable {table : Table}
variable {trace : List (Config × Event)}

/- The stakes of a run: never more than was bought in. -/
theorem Table.Run.staked
    {c : Config}
    (run : table.Run trace c)
    (hTotal : table.buyIns < 2 ^ 32)
    (hLive : c.Live) :
    c.session.Staked table.buyIns := by
  let Inv : Config → Prop := fun c =>
    c.Accounted ∧ c.session.worth ≤ table.buyIns ∧
      (c.Live → c.session.Staked table.buyIns)
  have hKeep : ∀ c e d, Inv c → c.step e = .ok d → Inv d := by
    intro c e d hInv hOk
    rcases hInv with ⟨hAccounted, hWorth, hStaked⟩
    have hStep := step_of_ok hOk
    have hLess := (hAccounted.step hStep).2
    refine ⟨hAccounted.next hOk, by omega, ?_⟩
    exact GameSession.Staked.step hAccounted hWorth hStaked
      hStep
  have hStart : Inv table.opening :=
    ⟨table.opening_accounted hTotal, Nat.le_refl _,
      fun hLive => absurd hLive id⟩
  exact (run.invariant_of_step hKeep hStart).2.2 hLive

end Runs

------------------------------------------------------------
-- What Is Offered Is Accepted
------------------------------------------------------------

namespace GameSession

/- `paid` chips have gone from a player's stack to the pot. -/
structure PutsIn
    (s t : GameSession)
    (p : PlayerId)
    (paid : Nat) : Prop where
  chips_add : (t.chips.get p).toNat + paid =
    (s.chips.get p).toNat
  pot_eq : t.pot.toNat = s.pot.toNat + paid
  others : ∀ q, q ≠ p → t.chips.get q = s.chips.get q

/-
  What an action was offered for: a call moves what is to
  call or the whole stack, a raise makes its total both the
  player's bet and the bet to match, and the other actions
  move nothing.
-/
def Honours
    (s t : GameSession)
    (p : PlayerId) : Action → Option UInt32 → Prop
| .fold, _ => s.PutsIn t p 0
| .check, _ => s.PutsIn t p 0
| .call, _ =>
    s.PutsIn t p
      (min (s.yourTurn p).toCall.toNat
        (s.yourTurn p).yourChips.toNat)
| .raise, none => False
| .raise, some total =>
    t.roundBets.get p = total ∧
      t.currentBet = total ∧
      s.roundBets.get p ≤ total ∧
      s.PutsIn t p
        (total.toNat - (s.roundBets.get p).toNat)

/- Chips that move do so without wrapping around. -/
theorem Moves.putsIn
    {s t : GameSession}
    {p : PlayerId}
    {paid : UInt32}
    (hMoves : s.Moves t p paid)
    (hEnough : paid ≤ s.chips.get p)
    (hFits : s.pot.toNat + (s.chips.get p).toNat < 2 ^ 32) :
    s.PutsIn t p paid.toNat where
  chips_add := by
    rw [hMoves.chips_get p, if_pos rfl]
    exact UInt32.toNat_sub_add_toNat hEnough
  pot_eq := by
    have hLe := UInt32.le_iff_toNat_le.mp hEnough
    rw [hMoves.pot_eq, UInt32.toNat_add_of_lt (by omega)]
  others := fun q hNe => by
    rw [hMoves.chips_get q, if_neg hNe]

section Offered

variable {s : GameSession}
variable {p : PlayerId}
variable {total : Nat}

/-
  Where a raise is offered, its range is above the bet to
  match and above the player's own bet, and he can pay it.
-/
theorem Staked.raise_range
    {bet : UInt32}
    (hStaked : s.Staked total)
    (hSmall : total < 2 ^ 31)
    (hAll : (s.roundBets.get p).toNat +
      (s.chips.get p).toNat ≤ total)
    (hOffered : .raise ∈ (s.yourTurn p).availableActions)
    (hMin : (s.yourTurn p).minAmount ≤ bet)
    (hMax : bet ≤ (s.yourTurn p).maxAmount) :
    s.currentBet < bet ∧
      s.roundBets.get p < bet ∧
      bet - s.roundBets.get p ≤ s.chips.get p := by
  rcases raise_mem_yourTurn.mp hOffered with ⟨hOwed, _⟩
  have hLevel := hStaked.currentBet_le
  have hPos := (UInt32.pos_iff_toNat_pos _).mp
    hStaked.increment_pos
  have hStep := hStaked.increment_le
  have hBlind : BIG_BLIND.toNat = 20 := rfl
  have hTop : s.currentBet.toNat +
      s.lastRaiseIncrement.toNat < 2 ^ 32 := by
    omega
  have hLow : s.currentBet.toNat +
      s.lastRaiseIncrement.toNat ≤ bet.toNat := by
    rw [← UInt32.toNat_add_of_lt hTop]
    exact UInt32.le_iff_toNat_le.mp hMin
  have hHigh : bet.toNat ≤ (s.roundBets.get p).toNat +
      (s.chips.get p).toNat := by
    rw [← UInt32.toNat_add_of_lt (by omega)]
    exact UInt32.le_iff_toNat_le.mp hMax
  -- A bet above the one to match would leave more to call
  -- than anybody has.
  have hCapped : s.roundBets.get p ≤ s.currentBet := by
    rw [UInt32.le_iff_toNat_le]
    by_contra hOver
    have hLt := UInt32.lt_iff_toNat_lt.mp hOwed
    rw [UInt32.toNat_sub] at hLt
    have hBet := (s.roundBets.get p).toNat_lt
    omega
  have hMore : s.roundBets.get p < bet := by
    have hLe := UInt32.le_iff_toNat_le.mp hCapped
    rw [UInt32.lt_iff_toNat_lt]
    omega
  refine ⟨?_, hMore, ?_⟩
  · rw [UInt32.lt_iff_toNat_lt]
    omega
  · have hPut := UInt32.toNat_sub_add_toNat
      (UInt32.le_of_lt hMore)
    rw [UInt32.le_iff_toNat_le]
    omega

/- The `switch` of `apply_action` lets every offer through. -/
theorem Staked.performs_offer
    {action : Action}
    {amount : Option UInt32}
    (hStaked : s.Staked total)
    (hSmall : total < 2 ^ 31)
    (hAll : (s.roundBets.get p).toNat +
      (s.chips.get p).toNat ≤ total)
    (hOffers : (s.yourTurn p).Offers action amount) :
    ∃ t, s.performAction p action amount = .ok t := by
  rcases hOffers with ⟨hOffered, hRange⟩
  cases action with
  | fold => exact ⟨_, rfl⟩
  | check =>
      have hLevel := UInt32.sub_eq_zero_iff_eq.mp
        (check_mem_yourTurn.mp hOffered)
      refine ⟨s, ?_⟩
      unfold performAction
      dsimp only
      rw [if_neg (not_not.mpr hLevel)]
  | call =>
      unfold performAction
      dsimp only
      split
      · exact ⟨_, rfl⟩
      · exact ⟨_, rfl⟩
  | raise =>
      rcases hRange rfl with ⟨bet, hSome, hMin, hMax⟩
      cases hSome
      rcases hStaked.raise_range hSmall hAll hOffered hMin
          hMax with
        ⟨hHigher, hMore, hEnough⟩
      unfold performAction applyRaise
      dsimp only
      rw [if_neg (UInt32.not_le.mpr hHigher),
        if_neg (UInt32.not_le.mpr hMore),
        if_neg (fun hLow =>
          absurd hLow.1 (UInt32.not_lt.mpr hMin)),
        if_neg (UInt32.not_lt.mpr hEnough)]
      split
      · exact ⟨_, rfl⟩
      · exact ⟨_, rfl⟩

/- What is let through does what it was offered for. -/
theorem Acts.honours
    {t : GameSession}
    {action : Action}
    {amount : Option UInt32}
    (hActs : s.Acts p action amount t)
    (hFits : s.pot.toNat + (s.chips.get p).toNat < 2 ^ 32) :
    s.Honours t p action amount := by
  have hMoves := hActs.moves
  cases hActs with
  | fold => exact hMoves.putsIn UInt32.zero_le hFits
  | check => exact hMoves.putsIn UInt32.zero_le hFits
  | callNothing hLevel =>
      have hLe : s.wager p .call amount ≤ s.chips.get p :=
        s.actualAmount_le_chips p _
      have hPuts := hMoves.putsIn hLe hFits
      rw [wager, UInt32.toNat_min] at hPuts
      exact hPuts
  | call hOwed =>
      have hLe : s.wager p .call amount ≤ s.chips.get p :=
        s.actualAmount_le_chips p _
      have hPuts := hMoves.putsIn hLe hFits
      rw [wager, UInt32.toNat_min] at hPuts
      exact hPuts
  | @raise bet hHigher hMore hMinimum hEnough =>
      have hWager : s.wager p .raise (some bet) =
          bet - s.roundBets.get p :=
        if_pos ⟨hHigher, hMore, hMinimum, hEnough⟩
      rw [hWager] at hMoves
      have hPuts := hMoves.putsIn hEnough hFits
      rw [UInt32.toNat_sub_of_le _ _
        (UInt32.le_of_lt hMore)] at hPuts
      refine ⟨?_, rfl, UInt32.le_of_lt hMore, hPuts⟩
      change (s.contribute p _).roundBets.get p = bet
      rw [roundBets_contribute_self,
        actualAmount_eq hEnough, UInt32.add_comm,
        UInt32.sub_add_cancel]

end Offered

/-
  The player on turn would be asked now, and what he would
  be sent offers the action.
-/
def Offered
    (s : GameSession)
    (p : PlayerId)
    (action : Action)
    (amount : Option UInt32) : Prop :=
  s.players[s.currentPlayerIndex]? = some p ∧
    s.canPlayerAct p ∧
    (s.yourTurn p).Offers action amount

instance
    (s : GameSession)
    (p : PlayerId)
    (action : Action)
    (amount : Option UInt32) :
    Decidable (s.Offered p action amount) :=
  inferInstanceAs (Decidable (_ ∧ _))

/- Whoever is on turn and can act is sent his `YourTurn`. -/
theorem askCurrentPlayer_of_canPlayerAct
    {s : GameSession}
    {p : PlayerId}
    (hAt : s.players[s.currentPlayerIndex]? = some p)
    (hAct : s.canPlayerAct p) :
    s.askCurrentPlayer =
      .ok (s.send p (.yourTurn (s.yourTurn p)), .done) := by
  unfold askCurrentPlayer playerAt
  rw [hAt]
  simp [require, bind, Except.bind, hAct]

/- An accepted action is announced, and nothing else is sent. -/
theorem afterAction_log
    {s t : GameSession}
    {p : PlayerId}
    {action : Action}
    {amount : Option UInt32}
    {pending : Pending}
    (hOk : s.afterAction p action amount =
      .ok (t, pending)) :
    t.log = s.log ++ s.players.map fun q =>
      .send q (.actionEvent ⟨s.names p, action, amount⟩) := by
  unfold afterAction at hOk
  dsimp only at hOk
  split at hOk
  · cases hOk
    rfl
  · rcases closes_of_ok hOk with ⟨rfl, _⟩
    rfl

theorem Acts.names_eq
    {s t : GameSession}
    {p : PlayerId}
    {action : Action}
    {amount : Option UInt32}
    (hActs : s.Acts p action amount t) :
    t.names = s.names := by
  cases hActs with
  | fold => rfl
  | check => rfl
  | callNothing => rfl
  | call => exact (s.contribute_frame p _).2.2.1
  | raise => exact (s.contribute_frame p _).2.2.1

/- `apply_action` on a request of the player on turn. -/
theorem applyAction_of_performed
    {s t : GameSession}
    {p : PlayerId}
    {connection : ConnId}
    {action : Action}
    {amount : Option UInt32}
    (hPlayer : s.getPlayer connection = some p)
    (hAt : s.players[s.currentPlayerIndex]? = some p)
    (hPerformed : s.performAction p action amount = .ok t) :
    s.applyAction connection action amount =
      t.afterAction p action amount := by
  unfold applyAction playerAt
  rw [hPlayer, hAt]
  simp [require, bind, Except.bind, hPerformed]

end GameSession

section Runs

variable {table : Table}
variable {trace : List (Config × Event)}
variable {s : GameSession}

/-
  The player on turn in a hand in progress is offered
  actions at a table of less than 2^31 chips.  A raise is
  only offered with a range, and `apply_action` accepts
  every action of the offer: it does what it was offered
  for, and its announcement is all that is sent.
-/
theorem Table.Run.honours_offer
    {p : PlayerId}
    (run : table.Run trace ⟨s, .done⟩)
    (hTotal : table.buyIns < 2 ^ 31)
    (hProgress : s.InProgress)
    (hAt : s.players[s.currentPlayerIndex]? = some p)
    (hAct : s.canPlayerAct p) :
    s.askCurrentPlayer =
        .ok (s.send p (.yourTurn (s.yourTurn p)), .done) ∧
      (.raise ∈ (s.yourTurn p).availableActions →
        (s.yourTurn p).minAmount ≤
          (s.yourTurn p).maxAmount) ∧
      (∃ connection, s.getPlayer connection = some p) ∧
      ∀ action amount,
        (s.yourTurn p).Offers action amount →
        ∃ t, s.performAction p action amount = .ok t ∧
          s.Honours t p action amount ∧
          ∀ connection, s.getPlayer connection = some p →
            ∃ d, s.applyAction connection action amount =
                t.afterAction p action amount ∧
              Config.step ⟨s, .done⟩
                (.applyAction connection action amount) =
                  .ok d ∧
              d.session.log =
                s.log ++ s.players.map fun q =>
                  .send q (.actionEvent
                    ⟨s.names p, action, amount⟩) := by
  have hFits : table.buyIns < 2 ^ 32 := by omega
  have hAccounted := run.accounted hFits
  have hStaked : s.Staked table.buyIns :=
    run.staked hFits hProgress
  have hSeated := List.mem_of_getElem? hAt
  have hDealtIn :=
    (hAccounted.inOrder.1.dealtIn (by simp)).2
  have hWorth : s.worth ≤ table.buyIns := by
    have hSum := run.worth hFits
    dsimp only at hSum
    omega
  have hAll := hStaked.betsIn.allIn_le hAccounted.solvent
    hDealtIn hSeated
  have hStack := GameSession.chips_le_seatedStacks hDealtIn
    hSeated
  have hEnough : s.hasEnoughPlayers :=
    Nat.le_trans hProgress.2 List.countP_le_length
  have hFurnished := run.furnished.session (by simp)
    (Or.inr hEnough)
  dsimp only at hAll hStack
  have hPot : s.pot.toNat + (s.chips.get p).toNat < 2 ^ 32 := by
    unfold GameSession.worth at hWorth
    omega
  refine ⟨GameSession.askCurrentPlayer_of_canPlayerAct hAt
    hAct, ?_, run.mapped p hSeated, ?_⟩
  · intro hOffered
    exact (GameSession.raise_mem_yourTurn.mp hOffered).2
  · intro action amount hOffers
    rcases hStaked.performs_offer hTotal (by omega)
        hOffers with
      ⟨t, hPerformed⟩
    have hActs := acts_of_ok hPerformed
    refine ⟨t, hPerformed, hActs.honours hPot, ?_⟩
    intro connection hPlayer
    have hApplied := GameSession.applyAction_of_performed
      hPlayer hAt hPerformed
    have hNever : (s.applyAction connection action
        amount).FailsOnly (fun _ => False) :=
      hFurnished.applyAction_failsOnly connection action amount
    rw [hApplied] at hNever
    rcases hNever.exists_ok with ⟨⟨u, pending⟩, hOk⟩
    refine ⟨⟨u, pending⟩, hApplied, ?_, ?_⟩
    · have hIdle : Config.Idle ⟨s, .done⟩ := ⟨rfl, hEnough⟩
      simp only [Config.step, hIdle, if_true,
        Config.ofResult_eq_ok]
      exact hApplied.trans hOk
    · dsimp only
      rw [GameSession.afterAction_log hOk,
        hActs.log_eq, hActs.frame.1, hActs.names_eq]

/- Player 0 has the turn in a hand of two. -/
def Event.firstTurn : List Event :=
  proceeds 2

theorem Table.firstTurn_honours_offer :
    ∃ trace s t,
      (numbered [1000, 1000] (by decide)).Run trace
        ⟨s, .done⟩ ∧
      s.performAction 0 .raise (some 40) = .ok t ∧
      s.Honours t 0 .raise (some 40) := by
  rcases exists_run (numbered [1000, 1000] (by decide))
      Event.firstTurn
      (fun _ c => decide
        (c.pending = .done ∧ c.session.InProgress ∧
          c.session.Offered 0 .raise (some 40)))
      (by decide +kernel) with
    ⟨trace, ⟨s, pending⟩, run, hTest⟩
  rcases of_decide_eq_true hTest with
    ⟨hRest, hProgress, hAt, hAct, hOffers⟩
  cases hRest
  rcases (run.honours_offer (by decide) hProgress hAt
      hAct).2.2.2 .raise (some 40) hOffers with
    ⟨t, hPerformed, hHonours, _⟩
  exact ⟨trace, s, t, run, hPerformed, hHonours⟩

end Runs

------------------------------------------------------------
-- What Is Accepted Was Offered
------------------------------------------------------------

namespace GameSession

/- Bet and stack of a player fit a word together. -/
def AllInFits
    (s : GameSession) : Prop :=
  ∀ p ∈ s.players,
    (s.roundBets.get p).toNat + (s.chips.get p).toNat < 2 ^ 32

section AllInFits

variable {s : GameSession}
variable {p : PlayerId}

/- A bet only moves chips from the stack to the bet. -/
theorem AllInFits.contribute
    (amount : UInt32)
    (hFits : s.AllInFits)
    (hSeated : p ∈ s.players) :
    (s.contribute p amount).AllInFits := by
  intro q hq
  rw [(s.contribute_frame p amount).1] at hq
  rw [contribute_roundBets, contribute_chips,
    KeyMap.get_set, KeyMap.get_set]
  by_cases hEq : q = p
  · rw [if_pos hEq, if_pos hEq]
    have hMine := hFits p hSeated
    have hLeft := UInt32.toNat_sub_add_toNat
      (s.actualAmount_le_chips p amount)
    rw [UInt32.toNat_add_of_lt (by omega)]
    omega
  · rw [if_neg hEq, if_neg hEq]
    exact hFits q hq

theorem AllInFits.acts
    {t : GameSession}
    {action : Action}
    {amount : Option UInt32}
    (hFits : s.AllInFits)
    (hSeated : p ∈ s.players)
    (hActs : s.Acts p action amount t) :
    t.AllInFits := by
  cases hActs with
  | fold => exact hFits
  | check => exact hFits
  | callNothing => exact hFits
  | call => exact hFits.contribute _ hSeated
  | raise => exact hFits.contribute _ hSeated

theorem AllInFits.vacate
    {leaver : Leaver}
    (hFits : s.AllInFits)
    (hNodup : s.players.Nodup)
    (hAt : s.players[leaver.removedIndex]? =
      some leaver.player) :
    (s.vacate leaver).AllInFits := by
  intro p hp
  rw [vacate_players] at hp
  rcases (mem_eraseIdx hNodup hAt).mp hp with ⟨hMem, hNe⟩
  rw [vacate_roundBets, vacate_chips,
    KeyMap.get_erase_of_ne _ hNe,
    KeyMap.get_erase_of_ne _ hNe]
  exact hFits p hMem

theorem clearBets_allInFits :
    s.clearBets.AllInFits := by
  intro p _
  have hZero : s.clearBets.roundBets.get p = 0 :=
    KeyMap.get_mapValues_default s.roundBets p
  rw [hZero, UInt32.toNat_zero, Nat.zero_add]
  exact UInt32.toNat_lt _

theorem Dealt.allInFits
    {dealt posted : GameSession}
    {shuffle : Shuffle}
    (hDealt : s.Dealt shuffle dealt)
    (hPosted : dealt.postBlinds = .ok posted) :
    posted.AllInFits := by
  rcases hDealt.spec with
    ⟨chips, deck, hands, roundBets, total, rfl, _, _, _,
      hServed⟩
  rcases blinds_of_ok hPosted with ⟨sb, bb, hSb, hBb, rfl⟩
  refine AllInFits.contribute (s := contribute _ sb SMALL_BLIND)
    BIG_BLIND (AllInFits.contribute SMALL_BLIND ?_ ?_) ?_
  · intro p hp
    have hZero : roundBets.get p = 0 := (hServed p hp).2
    dsimp only
    rw [hZero, UInt32.toNat_zero, Nat.zero_add]
    exact UInt32.toNat_lt _
  · exact List.mem_of_getElem? hSb
  · rw [(contribute_frame _ sb _).1]
    exact List.mem_of_getElem? hBb

end AllInFits

theorem SameBets.allInFits
    {s t : GameSession}
    (hSame : s.SameBets t)
    (hFits : s.AllInFits) :
    t.AllInFits := by
  unfold AllInFits
  rw [hSame.players_eq, hSame.roundBets_eq, hSame.chips_eq]
  exact hFits

/- While a hand is being bet on, everybody can go all-in. -/
theorem AllInFits.step
    {c d : Config}
    {e : Event}
    (hOrder : c.InOrder)
    (hFits : c.Live → c.session.AllInFits)
    (hStep : Step c e d)
    (hLive : d.Live) :
    d.session.AllInFits := by
  rcases hStep.betsFrom hOrder hLive with ⟨t, hFrom, hSame⟩
  apply hSame.allInFits
  cases hFrom with
  | dealt hStart hDealt hPosted =>
      exact hDealt.allInFits hPosted
  | kept hLive => exact hFits hLive
  | cleared => exact clearBets_allInFits
  | acted hLive hRest hSeated hActs =>
      exact (hFits hLive).acts hSeated hActs
  | @vacated leaver hLive hLeaves =>
      have hAt := (hOrder.1.leaver leaver (by
        rw [hLeaves]
        rfl)).1
      exact (hFits hLive).vacate hOrder.1.nodup hAt

section Accepted

variable {s t : GameSession}
variable {p : PlayerId}
variable {action : Action}
variable {amount : Option UInt32}

/-
  What is accepted from a player is within what he would be
  offered: he can act, he calls with chips and only a bet
  that he has not matched, and he raises from no more than
  the bet to match and to the minimum at least.
-/
def WithinOffer
    (s : GameSession)
    (p : PlayerId)
    (action : Action)
    (amount : Option UInt32) : Prop :=
  s.canPlayerAct p ∧
    (action = .call →
      0 < s.chips.get p ∧
        s.currentBet ≠ s.roundBets.get p) ∧
    (action = .raise →
      s.roundBets.get p ≤ s.currentBet ∧
        ∀ total ∈ amount,
          s.currentBet + s.lastRaiseIncrement ≤ total)

instance
    (s : GameSession)
    (p : PlayerId)
    (action : Action)
    (amount : Option UInt32) :
    Decidable (s.WithinOffer p action amount) :=
  -- The amount is looked at, not all the 32-bit words.
  letI : Decidable (∀ total ∈ amount,
      s.currentBet + s.lastRaiseIncrement ≤ total) :=
    Option.decidableForallMem amount
  inferInstanceAs (Decidable (_ ∧ (_ → _) ∧ (_ → _ ∧ _)))

/-
  An accepted raise was offered if it starts from no more
  than the bet to match and reaches the minimum.
-/
theorem Acts.raise_offers_iff
    {total : UInt32}
    (hActs : s.Acts p .raise (some total) t)
    (hFits : (s.roundBets.get p).toNat +
      (s.chips.get p).toNat < 2 ^ 32) :
    (s.yourTurn p).Offers .raise (some total) ↔
      s.roundBets.get p ≤ s.currentBet ∧
        s.currentBet + s.lastRaiseIncrement ≤ total := by
  cases hActs with
  | raise hHigher hMore _ hEnough =>
      have hPut := UInt32.toNat_sub_add_toNat
        (UInt32.le_of_lt hMore)
      have hLt := UInt32.lt_iff_toNat_lt.mp hHigher
      have hLe := UInt32.le_iff_toNat_le.mp hEnough
      have hTop : total ≤
          s.roundBets.get p + s.chips.get p := by
        rw [UInt32.le_iff_toNat_le,
          UInt32.toNat_add_of_lt hFits]
        omega
      constructor
      · rintro ⟨hMem, hRange⟩
        rcases hRange rfl with ⟨_, hTotal, hLow, _⟩
        cases hTotal
        refine ⟨?_, hLow⟩
        -- Above the bet to match, what is owed wraps around.
        have hOwed := (raise_mem_yourTurn.mp hMem).1
        rw [UInt32.lt_iff_toNat_lt, UInt32.toNat_sub]
          at hOwed
        rw [UInt32.le_iff_toNat_le]
        have hBet := (s.currentBet).toNat_lt
        omega
      · rintro ⟨hCapped, hLow⟩
        have hOwed := UInt32.toNat_sub_add_toNat hCapped
        refine ⟨raise_mem_yourTurn.mpr ⟨?_, ?_⟩, fun _ => ?_⟩
        · rw [UInt32.lt_iff_toNat_lt]
          omega
        · exact UInt32.le_trans hLow hTop
        · exact ⟨total, rfl, hLow, hTop⟩

/- What is accepted from a player was offered to him. -/
theorem Acts.offered_iff
    (hActs : s.Acts p action amount t)
    (hFits : (s.roundBets.get p).toNat +
      (s.chips.get p).toNat < 2 ^ 32)
    (hAt : s.players[s.currentPlayerIndex]? = some p) :
    s.Offered p action amount ↔
      s.WithinOffer p action amount := by
  unfold Offered WithinOffer
  rw [and_iff_right hAt]
  refine and_congr_right fun _ => ?_
  cases hActs with
  | fold => simp [YourTurn.Offers, fold_mem_yourTurn]
  | check hLevel =>
      have hNothing := UInt32.sub_eq_zero_iff_eq.mpr hLevel
      simp [YourTurn.Offers, check_mem_yourTurn, hNothing]
  | callNothing hNothing =>
      have hLevel := UInt32.sub_eq_zero_iff_eq.mp hNothing
      simp [YourTurn.Offers, call_mem_yourTurn, hLevel]
  | call hOwed =>
      have hSome :
          s.currentBet - s.roundBets.get p ≠ 0 := by
        intro hNothing
        rw [hNothing] at hOwed
        exact absurd hOwed (UInt32.lt_irrefl 0)
      have hUneven : s.currentBet ≠ s.roundBets.get p :=
        fun hLevel =>
          hSome (UInt32.sub_eq_zero_iff_eq.mpr hLevel)
      simp [YourTurn.Offers, call_mem_yourTurn, hSome,
        hUneven]
  | raise hHigher hMore hReaches hEnough =>
      rw [Acts.raise_offers_iff
        (.raise hHigher hMore hReaches hEnough) hFits]
      simp

end Accepted

end GameSession

section Runs

variable {table : Table}
variable {trace : List (Config × Event)}
variable {s : GameSession}

theorem Table.Run.allInFits
    {c : Config}
    (run : table.Run trace c)
    (hLive : c.Live) :
    c.session.AllInFits := by
  let Inv : Config → Prop := fun c =>
    c.InOrder ∧ (c.Live → c.session.AllInFits)
  have hKeep : ∀ c e d, Inv c → c.step e = .ok d → Inv d := by
    intro c e d hInv hOk
    rcases hInv with ⟨hOrder, hFits⟩
    exact ⟨hOrder.step hOk,
      GameSession.AllInFits.step hOrder hFits (step_of_ok hOk)⟩
  have hStart : Inv table.opening :=
    ⟨table.opening_inOrder, fun hLive => absurd hLive id⟩
  exact (run.invariant_of_step hKeep hStart).2 hLive

/-
  In a hand in progress a request is accepted from the
  player on turn only, and what is accepted was offered to
  him exactly if it is within what he would be offered.
-/
theorem Table.Run.accepted_offered_iff
    {connection : ConnId}
    {action : Action}
    {amount : Option UInt32}
    (run : table.Run trace ⟨s, .done⟩)
    (hProgress : s.InProgress)
    (hAccepts : Config.Accepts ⟨s, .done⟩
      (.applyAction connection action amount)) :
    ∃ p, s.getPlayer connection = some p ∧
      s.players[s.currentPlayerIndex]? = some p ∧
      (s.Offered p action amount ↔
        s.WithinOffer p action amount) := by
  rcases hAccepts with ⟨p, t, hPlayer, hAt, hPerformed⟩
  dsimp only at hPlayer hAt hPerformed
  have hFits := run.allInFits (c := ⟨s, .done⟩) hProgress p
    (List.mem_of_getElem? hAt)
  exact ⟨p, hPlayer, hAt,
    (acts_of_ok hPerformed).offered_iff hFits hAt⟩

/-
  A run to a hand in progress in which a player's request is
  accepted that he was not offered.
-/
def Table.AcceptsUnoffered
    (table : Table)
    (p : Nat)
    (action : Action)
    (amount : Option UInt32) : Prop :=
  ∃ trace s, table.Run trace ⟨s, .done⟩ ∧
    s.InProgress ∧
    Config.Accepts ⟨s, .done⟩
      (.applyAction p action amount) ∧
    ¬ s.Offered p action amount

/- The request of the player on turn passed the `switch`. -/
theorem Config.accepts_of_isOk
    {p : PlayerId}
    {connection : ConnId}
    {action : Action}
    {amount : Option UInt32}
    (hPlayer : s.getPlayer connection = some p)
    (hAt : s.players[s.currentPlayerIndex]? = some p)
    (hPerforms :
      (s.performAction p action amount).isOk = true) :
    Config.Accepts ⟨s, .done⟩
      (.applyAction connection action amount) := by
  cases hPerformed : s.performAction p action amount with
  | error code =>
      rw [hPerformed] at hPerforms
      cases hPerforms
  | ok t => exact ⟨p, t, hPlayer, hAt, hPerformed⟩

theorem Table.acceptsUnoffered_of_passes
    {p : Nat}
    {action : Action}
    {amount : Option UInt32}
    (table : Table)
    (events : List Event)
    (hPasses : Transition.passes Config.step table.opening
      events (fun _ c => decide
        (c.pending = .done ∧ c.session.InProgress ∧
          c.session.getPlayer p = some p ∧
          c.session.players[c.session.currentPlayerIndex]? =
            some p ∧
          (c.session.performAction p action amount).isOk =
            true ∧
          ¬ c.session.Offered p action amount)) = true) :
    table.AcceptsUnoffered p action amount := by
  rcases table.exists_run events _ hPasses with
    ⟨trace, ⟨s, pending⟩, run, hTest⟩
  rcases of_decide_eq_true hTest with
    ⟨hRest, hProgress, hPlayer, hAt, hPerforms, hNot⟩
  cases hRest
  exact ⟨trace, s, run, hProgress,
    Config.accepts_of_isOk hPlayer hAt hPerforms, hNot⟩

/- Player 0 calls the blind of player 1. -/
def Event.calledBlind : List Event :=
  proceeds 2 ++ [act 0 .call] ++ proceeds 1

/- Player 1 loses his 10 chips and is first to act again. -/
def Event.bustedDealer : List Event :=
  proceeds 2 ++ [act 0 .call] ++ proceeds 1 ++
    [act 2 .check] ++ proceeds 2 ++ [act 2 .check] ++
    proceeds 1 ++ [act 0 .check] ++ proceeds 2 ++
    [act 2 .check] ++ proceeds 1 ++ [act 0 .check] ++
    proceeds 2 ++ [act 2 .check] ++ proceeds 1 ++
    [act 0 .check] ++ proceeds 6

/- Player 0 has folded and is put on turn by a departure. -/
def Event.foldedTurn : List Event :=
  proceeds 2 ++ [act 3 .call] ++ proceeds 1 ++
    [act 0 .fold] ++ proceeds 1 ++ [act 1 .call] ++
    proceeds 1 ++ [act 2 .check] ++ proceeds 2 ++
    [act 1 .check] ++ proceeds 1 ++ [act 2 .check] ++
    proceeds 1 ++ [.removePlayer 1] ++ proceeds 1

/-
  A call of a bet that is matched, an all-in raise below the
  minimum, a call without chips, a raise of a bet above the
  one to match, and a check of a player who has folded.
-/
theorem Table.accepted_not_offered :
    (numbered [1000, 1000] (by decide)).AcceptsUnoffered
        1 .call none ∧
      (numbered [1000, 30] (by decide)).AcceptsUnoffered
        1 .raise (some 30) ∧
      (numbered [1000, 10, 1000] (by decide)).AcceptsUnoffered
        1 .call none ∧
      (numbered [25, 100] (by decide)).AcceptsUnoffered
        1 .raise (some 25) ∧
      (numbered [1000, 1000, 1000, 1000]
        (by decide)).AcceptsUnoffered 0 .check none := by
  refine ⟨?_, ?_, ?_, ?_, ?_⟩
  · apply acceptsUnoffered_of_passes _ Event.calledBlind
    decide +kernel
  · apply acceptsUnoffered_of_passes _ Event.calledBlind
    decide +kernel
  · apply acceptsUnoffered_of_passes _ Event.bustedDealer
    decide +kernel
  · apply acceptsUnoffered_of_passes _ Event.shortBigBlind
    decide +kernel
  · apply acceptsUnoffered_of_passes _ Event.foldedTurn
    decide +kernel

/- A raise of player 0 to twice the blind was offered. -/
theorem Table.firstTurn_offered :
    ∃ trace s,
      (numbered [1000, 1000] (by decide)).Run trace
        ⟨s, .done⟩ ∧
      s.Offered 0 .raise (some 40) := by
  rcases exists_run (numbered [1000, 1000] (by decide))
      Event.firstTurn
      (fun _ c => decide
        (c.pending = .done ∧ c.session.InProgress ∧
          c.session.getPlayer 0 = some 0 ∧
          c.session.players[c.session.currentPlayerIndex]? =
            some 0 ∧
          (c.session.performAction 0 .raise (some 40)).isOk =
            true ∧
          c.session.WithinOffer 0 .raise (some 40)))
      (by decide +kernel) with
    ⟨trace, ⟨s, pending⟩, run, hTest⟩
  rcases of_decide_eq_true hTest with
    ⟨hRest, hProgress, hPlayer, hAt, hPerforms, hWithin⟩
  cases hRest
  have hAccepts :=
    Config.accepts_of_isOk hPlayer hAt hPerforms
  rcases run.accepted_offered_iff hProgress hAccepts with
    ⟨p, hPlayer', _, hOffered⟩
  have hSame : p = 0 :=
    Option.some.inj (hPlayer'.symm.trans hPlayer)
  subst hSame
  exact ⟨trace, s, run, hOffered.mpr hWithin⟩

end Runs

end Server

end Poker

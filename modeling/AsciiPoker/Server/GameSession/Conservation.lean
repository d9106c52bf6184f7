import AsciiPoker.Server.GameSession.Ledger

/-
  The chips of a session.

  Chips only move between the stacks and the pot, until a
  leaver takes his stack with him or an award clears a pot
  that it has not paid out in full.

  Main declarations:
    * `GameSession.worth`, `GameSession.Solvent`
    * `Config.cashedOut`, `Config.unpaid`
    * `Table.Run.worth`
    * `GameSession.SettlesInFull`
-/

namespace Poker

namespace Server

open Protocol

namespace GameSession

------------------------------------------------------------
-- Stacks and Pot
------------------------------------------------------------

/- The stacks of the seated players. -/
def seatedStacks
    (s : GameSession) : Nat :=
  (s.players.map fun p => (s.stackOf p).toNat).sum

/- The chips at the table. -/
def worth
    (s : GameSession) : Nat :=
  s.seatedStacks + s.pot.toNat

/- All chips fit a word, and the stakes are in the pot. -/
def Solvent
    (s : GameSession) : Prop :=
  s.stakes.sum ≤ s.pot.toNat ∧ s.worth < 2 ^ 32

/- Once everybody is dealt in, the stacks are `chips_`. -/
theorem seatedStacks_of_dealtIn
    {s : GameSession}
    (hDealtIn : ∀ p ∈ s.players, (s.chips.find p).isSome) :
    s.seatedStacks =
      (s.players.map fun p => (s.chips.get p).toNat).sum := by
  apply List.sum_map_congr
  intro p hp
  rw [stackOf_of_isSome (hDealtIn p hp)]

/- A seated player's stack is part of the chips there are. -/
theorem chips_le_seatedStacks
    {s : GameSession}
    {p : PlayerId}
    (hDealtIn : ∀ p ∈ s.players, (s.chips.find p).isSome)
    (hSeated : p ∈ s.players) :
    (s.chips.get p).toNat ≤ s.seatedStacks := by
  rw [seatedStacks_of_dealtIn hDealtIn]
  exact List.le_sum_map
    (fun p => (s.chips.get p).toNat) hSeated

/- A quiet change touches no chips. -/
theorem Quiet.worth
    {s t : GameSession}
    (hQuiet : s.Quiet t)
    (hDealtIn : ∀ p ∈ s.players, (s.chips.find p).isSome) :
    t.worth = s.worth := by
  rcases hQuiet with ⟨bankrolls, log, rfl, _⟩
  unfold GameSession.worth
  rw [seatedStacks_of_dealtIn (s := s) hDealtIn,
    seatedStacks_of_dealtIn]
  exact hDealtIn

theorem Quiet.solvent
    {s t : GameSession}
    (hQuiet : s.Quiet t)
    (hDealtIn : ∀ p ∈ s.players, (s.chips.find p).isSome)
    (hSolvent : s.Solvent) :
    t.Solvent := by
  have hWorth := hQuiet.worth hDealtIn
  rcases hQuiet with ⟨bankrolls, log, rfl, _⟩
  exact ⟨hSolvent.1, hWorth ▸ hSolvent.2⟩

section Contribute

variable {s : GameSession}
variable {p : PlayerId}

/- A contribution leaves a player's stack. -/
theorem seatedStacks_contribute
    (amount : UInt32)
    (hNodup : s.players.Nodup)
    (hDealtIn : ∀ p ∈ s.players, (s.chips.find p).isSome)
    (hSeated : p ∈ s.players) :
    (s.contribute p amount).seatedStacks +
        (s.actualAmount p amount).toNat =
      s.seatedStacks := by
  have hPlayers := (s.contribute_frame p amount).1
  rw [seatedStacks_of_dealtIn hDealtIn,
    seatedStacks_of_dealtIn (by
      rw [hPlayers]
      exact fun q hq =>
        s.contribute_isSome p amount (hDealtIn q hq)),
    hPlayers]
  have hSum := List.sum_map_exchange
    (f := fun q =>
      ((s.contribute p amount).chips.get q).toNat)
    (g := fun q => (s.chips.get q).toNat)
    hNodup hSeated
    (fun q _ hNe => by
      rw [contribute_chips, KeyMap.get_set_of_ne _ _ hNe])
  have hTaken := UInt32.toNat_sub_add_toNat
    (s.actualAmount_le_chips p amount)
  have hLeft : (s.contribute p amount).chips.get p =
      s.chips.get p - s.actualAmount p amount := by
    rw [contribute_chips, KeyMap.get_set_self]
  rw [← hLeft] at hTaken
  beta_reduce at hSum
  omega

/- A contribution moves chips from a stack to the pot. -/
theorem Solvent.contribute
    (amount : UInt32)
    (hNodup : s.players.Nodup)
    (hDealtIn : ∀ p ∈ s.players, (s.chips.find p).isSome)
    (hSeated : p ∈ s.players)
    (hSolvent : s.Solvent) :
    (s.contribute p amount).Solvent ∧
      (s.contribute p amount).worth = s.worth := by
  rcases hSolvent with ⟨hStakes, hWorth⟩
  have hStacks := seatedStacks_contribute amount hNodup
    hDealtIn hSeated
  have hStake := stakes_contribute amount hNodup hSeated
  have hMine : (s.totalContributed.get p).toNat ≤
      s.stakes.sum :=
    List.le_sum_map
      (fun p => (s.totalContributed.get p).toNat) hSeated
  unfold worth at hWorth
  rw [UInt32.toNat_add_of_lt (by omega)] at hStake
  have hPot : (s.contribute p amount).pot.toNat =
      s.pot.toNat + (s.actualAmount p amount).toNat := by
    rw [contribute_pot,
      UInt32.toNat_add_of_lt (by omega)]
  have hSame :
      (s.contribute p amount).worth = s.worth := by
    unfold worth
    omega
  refine ⟨⟨?_, ?_⟩, hSame⟩
  · omega
  · rw [hSame]
    exact hWorth

/- An accepted action keeps the chips at the table. -/
theorem Acts.solvent
    {t : GameSession}
    {action : Action}
    {amount : Option UInt32}
    (hActs : s.Acts p action amount t)
    (hNodup : s.players.Nodup)
    (hDealtIn : ∀ p ∈ s.players, (s.chips.find p).isSome)
    (hSeated : p ∈ s.players)
    (hSolvent : s.Solvent) :
    t.Solvent ∧ t.worth = s.worth := by
  cases hActs with
  | fold => exact ⟨hSolvent, rfl⟩
  | check => exact ⟨hSolvent, rfl⟩
  | callNothing => exact ⟨hSolvent, rfl⟩
  | call =>
      exact hSolvent.contribute _ hNodup hDealtIn hSeated
  | raise =>
      exact hSolvent.contribute _ hNodup hDealtIn hSeated

/- So does recording and announcing it. -/
theorem Acts.solvent_recorded
    {t u : GameSession}
    {action : Action}
    {amount : Option UInt32}
    (hActs : s.Acts p action amount t)
    (hNodup : s.players.Nodup)
    (hDealtIn : ∀ p ∈ s.players, (s.chips.find p).isSome)
    (hSeated : p ∈ s.players)
    (hQuiet : (t.recordPlayerAction p action).Quiet u)
    (hSolvent : s.Solvent) :
    u.Solvent ∧ u.worth = s.worth := by
  rcases hActs.solvent hNodup hDealtIn hSeated hSolvent with
    ⟨hSolvent', hWorth⟩
  have hDealtIn' : ∀ q ∈ t.players,
      (t.chips.find q).isSome := by
    rw [hActs.frame.1]
    exact fun q hq => hActs.isSome (hDealtIn q hq)
  exact ⟨hQuiet.solvent hDealtIn' hSolvent',
    (hQuiet.worth hDealtIn').trans hWorth⟩

end Contribute

/-
  Before the blinds are posted every seat has its stack, no
  bet and no stake.
-/
structure BeforeBlinds
    (s dealt : GameSession) : Prop where
  players_eq : dealt.players = s.players
  dealtIn : ∀ p ∈ dealt.players, (dealt.chips.find p).isSome
  noBets : ∀ p ∈ dealt.players, dealt.roundBets.get p = 0
  solvent : dealt.Solvent
  worth_eq : dealt.worth = s.worth

theorem Dealt.beforeBlinds
    {s dealt : GameSession}
    {shuffle : Shuffle}
    (hPot : s.pot = 0)
    (hWorth : s.worth < 2 ^ 32)
    (hDealt : s.Dealt shuffle dealt) :
    s.BeforeBlinds dealt := by
  rcases hDealt.spec with
    ⟨chips, deck, hands, roundBets, total, hEq, _, hStack,
      hNone, hServed⟩
  have hPlayers : dealt.players = s.players := by
    rw [hEq]
    rfl
  have hStacks : dealt.worth = s.worth := by
    unfold worth seatedStacks
    rw [hPlayers, hPot, hEq]
    congr 1
    apply List.sum_map_congr
    intro p _
    congr 1
    exact hStack p
  refine ⟨hPlayers, ?_, ?_, ⟨?_, hStacks ▸ hWorth⟩, hStacks⟩
  · rw [hPlayers, hEq]
    intro p hp
    simp [(hServed p hp).1]
  · rw [hPlayers, hEq]
    exact fun p hp => (hServed p hp).2
  · rw [stakes_sum_eq_zero (fun p _ => by
      rw [hEq]
      exact hNone p)]
    exact Nat.zero_le _

/- Dealing a hand keeps the chips at the table. -/
theorem Dealt.solvent
    {s dealt posted : GameSession}
    {shuffle : Shuffle}
    (hNodup : s.players.Nodup)
    (hPot : s.pot = 0)
    (hWorth : s.worth < 2 ^ 32)
    (hDealt : s.Dealt shuffle dealt)
    (hPosted : dealt.postBlinds = .ok posted) :
    posted.Solvent ∧ posted.seatedStacks +
      posted.pot.toNat = s.worth := by
  rcases hDealt.beforeBlinds hPot hWorth with
    ⟨hPlayers, hDealtIn, _, hStart, hStacks⟩
  rcases blinds_of_ok hPosted with ⟨sb, bb, hSb, hBb, rfl⟩
  rw [← hPlayers] at hNodup
  have hSmall := hStart.contribute (p := sb) SMALL_BLIND
    hNodup hDealtIn (List.mem_of_getElem? hSb)
  have hPlayers' :=
    (dealt.contribute_frame sb SMALL_BLIND).1
  have hBig := hSmall.1.contribute (p := bb) BIG_BLIND
    (hPlayers' ▸ hNodup)
    (by
      rw [hPlayers']
      exact fun p hp =>
        contribute_isSome _ sb _ (hDealtIn p hp))
    (hPlayers' ▸ List.mem_of_getElem? hBb)
  exact ⟨hBig.1, hBig.2.trans (hSmall.2.trans hStacks)⟩

------------------------------------------------------------
-- Awards
------------------------------------------------------------

/-
  The pot is paid out in full: it is what the seated players
  put in, and the highest stake is that of a player who is
  still in the hand.  The loop of `compute_side_pots` takes
  the top of the word for "no bet left".
-/
def SettlesInFull
    (s : GameSession) : Prop :=
  s.pot.toNat = s.stakes.sum ∧
    ∃ q ∈ s.players,
      q ∉ s.foldedPlayers ∧
      s.totalContributed.get q ≠ uint32Max ∧
      ∀ p ∈ s.players,
        s.totalContributed.get p ≤ s.totalContributed.get q

/- The chips of the pot that an award pays to nobody. -/
def unpaid
    (s : GameSession) : Nat :=
  s.pot.toNat - s.sidePotTotal

theorem sidePotTotal_le
    (s : GameSession) :
    s.sidePotTotal ≤ s.stakes.sum := by
  rw [← piles_remaining]
  exact SidePots.total_loop_le _ _ _

/- The side pots, when a player still in has the most in. -/
theorem sidePotTotal_of_settlesInFull
    {s : GameSession}
    (hFits : s.stakes.sum < 2 ^ 32)
    (hFull : s.SettlesInFull) :
    s.sidePotTotal = s.stakes.sum := by
  rcases hFull with ⟨_, q, hSeat, hIn, hTop, hMost⟩
  rcases List.getElem?_of_mem hSeat with ⟨i, hi⟩
  have hHeight : SidePots.IsHeight s.remaining
      (SidePots.unfolded s.potPlayerStates)
      (s.totalContributed.get q).toNat := by
    refine ⟨fun j hj => ?_, Or.inr ⟨i, ?_, ?_⟩⟩
    · rcases mem_unfolded.mp hj with ⟨p, hp, _⟩
      rw [entry_remaining hp]
      exact UInt32.le_iff_toNat_le.mp
        (hMost p (List.mem_of_getElem? hp))
    · exact mem_unfolded.mpr ⟨q, hi, hIn⟩
    · rw [entry_remaining hi]
  have hBelowTop :
      (s.totalContributed.get q).toNat <
        uint32Max.toNat := by
    have hNe : (s.totalContributed.get q).toNat ≠
        uint32Max.toNat :=
      fun h => hTop (UInt32.toNat_inj.mp h)
    have hLt := (s.totalContributed.get q).toNat_lt
    have hMax : uint32Max.toNat = 2 ^ 32 - 1 := rfl
    omega
  have hTotal := SidePots.total_loop (Nat.le_refl _) hHeight
    hBelowTop (by rw [piles_remaining]; exact hFits)
  rw [piles_remaining] at hTotal
  rw [sidePotTotal]
  refine hTotal.trans ?_
  rw [Layers.below_eq_sum_iff]
  intro stake hStake
  rcases List.mem_map.mp hStake with ⟨p, hp, rfl⟩
  exact UInt32.le_iff_toNat_le.mp (hMost p hp)

/-
  A stake at the top of the word leaves no chips for anybody
  else to have put in, and no side pot.
-/
theorem sidePotTotal_of_top
    {s : GameSession}
    {i : Nat}
    (hNodup : s.players.Nodup)
    (hFits : s.stakes.sum < 2 ^ 32)
    (hTop : uint32Max.toNat ≤
      (SidePots.entry s.remaining i).toNat)
    (hMem : i ∈ SidePots.unfolded s.potPlayerStates) :
    s.sidePotTotal = 0 := by
  rcases mem_unfolded.mp hMem with ⟨p, hp, _⟩
  rw [entry_remaining hp] at hTop
  have hMax : uint32Max.toNat = 2 ^ 32 - 1 := rfl
  change ((SidePots.loop
    (SidePots.unfolded s.potPlayerStates).length s.remaining
    (SidePots.unfolded s.potPlayerStates)).map
      fun pot => pot.amount.toNat).sum = 0
  cases (SidePots.unfolded s.potPlayerStates).length with
  | zero => rfl
  | succ rounds =>
      rcases SidePots.loop_succ rounds s.remaining
          (SidePots.unfolded s.potPlayerStates) with
        ⟨hNil, _⟩ | ⟨_, hTaken, _⟩
      · rw [hNil]
        rfl
      · -- The least bet would be that of a second player.
        exfalso
        rcases SidePots.minBet_mem s.remaining
            (SidePots.unfolded s.potPlayerStates) with
          hNone | ⟨j, hj, hPos, hEq⟩
        · exact hTaken hNone
        · rcases mem_unfolded.mp hj with ⟨q, hq, _⟩
          rw [entry_remaining hq] at hPos hEq
          have hNe : q ≠ p := by
            rintro rfl
            rw [hEq] at hTaken
            have hLt := (s.totalContributed.get q).toNat_lt
            apply hTaken
            apply UInt32.toNat_inj.mp
            omega
          have hTwo := List.add_le_sum_map
            (fun p => (s.totalContributed.get p).toNat)
            hNodup (List.mem_of_getElem? hp)
            (List.mem_of_getElem? hq) hNe
          change _ ≤ s.stakes.sum at hTwo
          omega

/- When an award leaves nothing of the pot unpaid. -/
theorem unpaid_eq_zero_iff
    {s : GameSession}
    (hNodup : s.players.Nodup)
    (hSolvent : s.Solvent) :
    s.unpaid = 0 ↔ s.pot = 0 ∨ s.SettlesInFull := by
  rcases hSolvent with ⟨hStakes, hWorth⟩
  have hPotLt := s.pot.toNat_lt
  have hLe := s.sidePotTotal_le
  have hFits : s.stakes.sum < 2 ^ 32 := by omega
  unfold unpaid
  constructor
  · intro hPaid
    by_cases hEmpty : s.pot = 0
    · exact Or.inl hEmpty
    right
    have hSome : s.pot.toNat ≠ 0 :=
      fun h => hEmpty ((UInt32.toNat_eq_zero_iff _).mp h)
    rcases SidePots.exists_isHeight s.remaining
        (SidePots.unfolded s.potPlayerStates) with
      ⟨height, hHeight⟩
    by_cases hTop : height < uint32Max.toNat
    · have hTotal := SidePots.total_loop (Nat.le_refl _)
        hHeight hTop (by rw [piles_remaining]; exact hFits)
      rw [piles_remaining] at hTotal
      change s.sidePotTotal = _ at hTotal
      have hBelow : Layers.below height s.stakes =
          s.stakes.sum := by
        have := Layers.below_le_sum height s.stakes
        omega
      rcases hHeight.2 with hZero | ⟨i, hi, hEq⟩
      · rw [hZero, Layers.below_zero] at hTotal
        omega
      · rcases mem_unfolded.mp hi with ⟨q, hq, hIn⟩
        rw [entry_remaining hq] at hEq
        refine ⟨by omega, q, List.mem_of_getElem? hq, hIn,
          ?_, ?_⟩
        · intro hMax
          rw [hMax] at hEq
          omega
        · intro p hp
          rw [UInt32.le_iff_toNat_le, hEq]
          exact (Layers.below_eq_sum_iff _ _).mp hBelow _
            (List.mem_map.mpr ⟨p, hp, rfl⟩)
    · rcases hHeight.2 with hZero | ⟨i, hi, hEq⟩
      · have hMax : uint32Max.toNat = 2 ^ 32 - 1 := rfl
        omega
      · have hNone := sidePotTotal_of_top hNodup hFits
          (by omega) hi
        omega
  · rintro (hEmpty | hFull)
    · rw [hEmpty]
      exact Nat.zero_sub _
    · have hAll := sidePotTotal_of_settlesInFull hFits hFull
      have hPot := hFull.1
      omega

/- What an award pays was in the pot, the rest is lost. -/
theorem award_worth
    {s : GameSession}
    {award : Award}
    (hNodup : s.players.Nodup)
    (hFew : s.players.length ≤ 26)
    (hDealtIn : ∀ p ∈ s.players, (s.chips.find p).isSome)
    (hSolvent : s.Solvent)
    (hPaid : (computeSidePots s.potPlayerStates).foldlM
      payPot { session := s } = .ok award) :
    (∀ p ∈ award.session.players,
        (award.session.chips.find p).isSome) ∧
      award.session.seatedStacks + s.unpaid = s.worth := by
  rcases hSolvent with ⟨hStakes, hWorth⟩
  rcases award_pays hNodup (by omega) hPaid with
    ⟨gain, hPays, hSplits, _⟩
  have hPlayers := hPays.players_eq
  have hPaidIn : ∀ p ∈ award.session.players,
      (award.session.chips.find p).isSome := by
    rw [hPlayers]
    exact fun p hp => hPays.isSome p (hDealtIn p hp)
  refine ⟨hPaidIn, ?_⟩
  have hLe := s.sidePotTotal_le
  have hGains := hSplits.total
  have hStacks := seatedStacks_of_dealtIn hDealtIn
  unfold worth at hWorth ⊢
  have hEach : ∀ p ∈ s.players,
      (award.session.chips.get p).toNat =
        (s.chips.get p).toNat + gain p := by
    intro p hp
    have hMine := chips_le_seatedStacks hDealtIn hp
    have hGain := hSplits.le hp
    have hLt : gain p < 2 ^ 32 := by omega
    have hSmall : (UInt32.ofNat (gain p)).toNat = gain p :=
      UInt32.toNat_ofNat_of_lt' hLt
    rw [hPays.chips_get, UInt32.toNat_add_of_lt, hSmall]
    rw [hSmall]
    omega
  rw [seatedStacks_of_dealtIn hPaidIn, hPlayers, List.sum_map_congr hEach, List.sum_map_add,
    hGains, ← hStacks]
  unfold unpaid
  omega

------------------------------------------------------------
-- Departures
------------------------------------------------------------

/- A leaver takes his stack from the table. -/
theorem worth_vacate
    {s : GameSession}
    {leaver : Leaver}
    (hNodup : s.players.Nodup)
    (hDealtIn : ∀ p ∈ s.players, (s.chips.find p).isSome)
    (hAt : s.players[leaver.removedIndex]? =
      some leaver.player) :
    (s.vacate leaver).worth +
        (s.chips.get leaver.player).toNat =
      s.worth := by
  have hOthers : ∀ p ∈
      s.players.eraseIdx leaver.removedIndex,
      p ∈ s.players ∧ p ≠ leaver.player :=
    fun p hp => (mem_eraseIdx hNodup hAt).mp hp
  have hStacks :
      (s.vacate leaver).seatedStacks +
          (s.chips.get leaver.player).toNat =
        s.seatedStacks := by
    rw [seatedStacks_of_dealtIn hDealtIn,
      seatedStacks_of_dealtIn (by
        rw [vacate_players, vacate_chips]
        intro p hp
        rw [KeyMap.find_erase, if_neg (hOthers p hp).2]
        exact hDealtIn p (hOthers p hp).1),
      vacate_players, vacate_chips]
    have hPerm := (players_perm hAt).map
      (fun p => (s.chips.get p).toNat)
    rw [← hPerm.sum_eq, List.map_cons, List.sum_cons,
      Nat.add_comm]
    congr 1
    apply List.sum_map_congr
    intro p hp
    rw [KeyMap.get_erase_of_ne _ (hOthers p hp).2]
  unfold worth
  rw [vacate_pot]
  omega

/- The chips stay in order when a leaver is gone. -/
theorem Solvent.vacate
    {s : GameSession}
    {leaver : Leaver}
    (hNodup : s.players.Nodup)
    (hDealtIn : ∀ p ∈ s.players, (s.chips.find p).isSome)
    (hAt : s.players[leaver.removedIndex]? =
      some leaver.player)
    (hSolvent : s.Solvent) :
    (s.vacate leaver).Solvent := by
  rcases hSolvent with ⟨hStakes, hWorth⟩
  have hStakes' := stakes_vacate hNodup hAt
  have hWorth' := worth_vacate hNodup hDealtIn hAt
  refine ⟨?_, by omega⟩
  rw [vacate_pot]
  omega

end GameSession

------------------------------------------------------------
-- Runs
------------------------------------------------------------

/- What a leaver takes with him at a step. -/
def Config.cashedOut
    (c : Config) : Nat :=
  match c.pending with
  | .resume (.finishRemoval leaver) =>
      (c.session.chips.get leaver.player).toNat
  | _ => 0

/- What an award clears from the pot and pays to nobody. -/
def Config.unpaid
    (c : Config) : Nat :=
  match c.pending with
  | .awardAllPots _ => c.session.unpaid
  | _ => 0

/- Each award of the configuration pays the pot in full. -/
def Config.Settles
    (c : Config) : Prop :=
  ∀ next, c.pending = .awardAllPots next →
    c.session.pot = 0 ∨ c.session.SettlesInFull

/- The ledgers of a run, and the order at its table. -/
structure Config.Accounted
    (c : Config) : Prop where
  inOrder : c.InOrder
  solvent : c.session.Solvent

section Table

variable (table : Table)

theorem Table.opening_accounted
    (hTotal : table.buyIns < 2 ^ 32) :
    table.opening.Accounted where
  inOrder := table.opening_inOrder
  solvent := by
    refine ⟨?_, hTotal⟩
    rw [GameSession.stakes_sum_eq_zero (fun _ _ => rfl)]
    exact Nat.zero_le _

end Table

/-
  Every step keeps the chips at the table, but for those a
  leaver takes with him and those an award pays to nobody.
-/
theorem Config.Accounted.step
    {c d : Config}
    {e : Event}
    (hAccounted : c.Accounted)
    (hStep : Step c e d) :
    d.session.Solvent ∧
      d.session.worth + (c.cashedOut + c.unpaid) =
        c.session.worth := by
  rcases hAccounted with ⟨⟨hSeated, hStaged⟩, hSolvent⟩
  have hNodup := hSeated.nodup
  have hLeaver := hSeated.leaver
  have hDealtIn := hSeated.dealtIn
  cases hStep with
  | started hDealt hPosted hQuiet =>
      have hSome := GameSession.started_dealtIn hDealt hPosted
      have hPost := hDealt.solvent hNodup hStaged.2
        hSolvent.2 hPosted
      have hSeats := hSome.1 ▸ hSome.2.2.2
      exact ⟨hQuiet.solvent hSeats hPost.1,
        (hQuiet.worth hSeats).trans hPost.2⟩
  | asked hAt hAct => exact ⟨hSolvent, rfl⟩
  | passedOver hAt hAct hCloses => exact ⟨hSolvent, rfl⟩
  | wonByFold hOne => exact ⟨hSolvent, rfl⟩
  | street hMany hPhase hDeal hQuiet =>
      have hSome := (hDealtIn (by simp)).2
      exact ⟨hQuiet.solvent hSome hSolvent,
        hQuiet.worth hSome⟩
  | riverClosed hMany hPhase => exact ⟨hSolvent, rfl⟩
  | pastShowdown hMany hPhase => exact ⟨hSolvent, rfl⟩
  | shownDown hQuiet hPending =>
      have hSome := (hDealtIn (by simp)).2
      exact ⟨hQuiet.solvent hSome hSolvent,
        hQuiet.worth hSome⟩
  | singleWinner => exact ⟨hSolvent, rfl⟩
  | @awardedNothing s next shuffle hEmpty =>
      have hNothing : s.unpaid = 0 :=
        (GameSession.unpaid_eq_zero_iff hNodup hSolvent).mpr
          (Or.inl hEmpty)
      refine ⟨hSolvent, ?_⟩
      simp [Config.cashedOut, Config.unpaid, hNothing]
  | @awarded s t award next shuffle hFull hPaid hQuiet =>
      rcases hDealtIn (by simp) with ⟨hFew, hSome⟩
      dsimp only at hFew hSome hNodup
      rcases GameSession.award_worth hNodup hFew hSome
          hSolvent hPaid with
        ⟨hPaidIn, hWorth⟩
      have hCleared : GameSession.Solvent
          { award.session with
            pot := 0
            totalContributed := .empty } := by
        refine ⟨?_, ?_⟩
        · rw [GameSession.stakes_sum_eq_zero
            (fun p _ => KeyMap.get_empty p)]
          exact Nat.zero_le _
        · have hBound := hSolvent.2
          change award.session.seatedStacks + 0 < _
          dsimp only at hBound
          omega
      refine ⟨hQuiet.solvent hPaidIn hCleared, ?_⟩
      rw [hQuiet.worth hPaidIn]
      change award.session.seatedStacks + 0 +
        (0 + s.unpaid) = s.worth
      omega
  | handOver hEnough hChips => exact ⟨hSolvent, rfl⟩
  | gameOver hOver => exact ⟨hSolvent, rfl⟩
  | @leftFew s t leaver shuffle hFew hErased =>
      rcases hLeaver leaver rfl with ⟨hAt, _⟩
      have hSome := (hDealtIn (by simp)).2
      have hVacated := GameSession.Solvent.vacate hNodup
        hSome hAt hSolvent
      have hWorth := GameSession.worth_vacate hNodup hSome hAt
      rcases hErased with rfl | rfl
      · exact ⟨hVacated, hWorth⟩
      · exact ⟨hVacated, hWorth⟩
  | leftOneActive hEnough hOne =>
      rcases hLeaver _ rfl with ⟨hAt, _⟩
      have hSome := (hDealtIn (by simp)).2
      exact ⟨GameSession.Solvent.vacate hNodup hSome hAt
          hSolvent,
        GameSession.worth_vacate hNodup hSome hAt⟩
  | leftClosing hEnough hMany hCloses =>
      rcases hLeaver _ rfl with ⟨hAt, _⟩
      have hSome := (hDealtIn (by simp)).2
      exact ⟨GameSession.Solvent.vacate hNodup hSome hAt
          hSolvent,
        GameSession.worth_vacate hNodup hSome hAt⟩
  | @leftWaiting s t leaver shuffle hEnough hMany hOther hOpen
      hQuiet =>
      rcases hLeaver leaver rfl with ⟨hAt, _⟩
      have hSome := (hDealtIn (by simp)).2
      have hRest : Config.Seated ⟨s.vacate leaver, .done⟩ :=
        hSeated.of_eraseIdx
          (GameSession.vacate_players ..)
          (GameSession.vacate_chips ..) rfl
      have hSome' := (hRest.dealtIn (by simp)).2
      have hVacated := GameSession.Solvent.vacate hNodup
        hSome hAt hSolvent
      refine ⟨hQuiet.solvent hSome' hVacated, ?_⟩
      rw [hQuiet.worth hSome']
      exact GameSession.worth_vacate hNodup hSome hAt
  | unmapped hEnough hNone => exact ⟨hSolvent, rfl⟩
  | rejected hEnough hPlayer => exact ⟨hSolvent, rfl⟩
  | wonByAction hEnough hPlayer hAt hActs hQuiet hOne =>
      have hSome := (hDealtIn (by simp)).2
      exact hActs.solvent_recorded hNodup hSome
        (List.mem_of_getElem? hAt) hQuiet hSolvent
  | acted hEnough hPlayer hAt hActs hQuiet hMany hCloses =>
      have hSome := (hDealtIn (by simp)).2
      have hRecorded := hActs.solvent_recorded hNodup hSome
        (List.mem_of_getElem? hAt) hQuiet hSolvent
      exact hRecorded
  | notSeated hEnough hNone => exact ⟨hSolvent, rfl⟩
  | leaving hEnough hPlayer hAt hCurrent hWas hPending =>
      exact ⟨hSolvent, rfl⟩

section Runs

variable {table : Table}
variable {trace : List (Config × Event)}
variable {c : Config}

theorem Config.Accounted.next
    {c d : Config}
    {e : Event}
    (hAccounted : c.Accounted)
    (hOk : c.step e = .ok d) :
    d.Accounted where
  inOrder := hAccounted.inOrder.step hOk
  solvent := (hAccounted.step (step_of_ok hOk)).1

/- The ledgers are in order at every point of a run. -/
theorem Table.Run.accounted
    (run : table.Run trace c)
    (hTotal : table.buyIns < 2 ^ 32) :
    c.Accounted :=
  run.invariant_of_step
    (fun _ _ _ hAccounted hOk => hAccounted.next hOk)
    (table.opening_accounted hTotal)

/-
  Where the starting bankrolls are after a run: at the
  table, with those who left, or lost by an award.
-/
theorem Table.Run.worth
    (run : table.Run trace c)
    (hTotal : table.buyIns < 2 ^ 32) :
    c.session.worth +
        (trace.map fun p =>
          p.1.cashedOut + p.1.unpaid).sum =
      table.buyIns :=
  run.potential
    (fun _ _ _ hAccounted hOk => hAccounted.next hOk)
    (fun _ _ _ hAccounted hOk =>
      (hAccounted.step (step_of_ok hOk)).2)
    (table.opening_accounted hTotal)

/- An award loses nothing exactly when it settles. -/
theorem Config.Accounted.unpaid_eq_zero_iff
    (hAccounted : c.Accounted) :
    c.unpaid = 0 ↔ c.Settles := by
  have hIff := GameSession.unpaid_eq_zero_iff
    hAccounted.inOrder.1.nodup hAccounted.solvent
  unfold Config.unpaid Config.Settles
  cases hPending : c.pending with
  | awardAllPots next => simpa using hIff
  | _ => simp

/- The stacks in `chips_`, the pot and the stacks taken. -/
def Config.accountedFor
    (c : Config)
    (trace : List (Config × Event)) : Nat :=
  (c.session.players.map
      fun p => (c.session.chips.get p).toNat).sum +
    c.session.pot.toNat +
    (trace.map fun p => p.1.cashedOut).sum

/-
  Between two calls of a run the chips at the table and the
  chips taken away are the starting bankrolls exactly when
  every award of the run paid its pot in full.
-/
theorem Table.Run.accountedFor_eq_iff
    (run : table.Run trace c)
    (hTotal : table.buyIns < 2 ^ 32)
    (hRest : c.pending = .done) :
    c.accountedFor trace = table.buyIns ↔
      ∀ p ∈ trace, p.1.Settles := by
  have hWorth := run.worth hTotal
  have hSeated := (run.accounted hTotal).inOrder.1
  have hStacks := GameSession.seatedStacks_of_dealtIn
    (hSeated.dealtIn (by simp [hRest])).2
  rw [List.sum_map_add] at hWorth
  unfold GameSession.worth at hWorth
  have hNone :
      (trace.map fun p => p.1.unpaid).sum = 0 ↔
        ∀ p ∈ trace, p.1.Settles := by
    rw [List.sum_eq_zero_iff, List.forall_mem_map]
    apply forall₂_congr
    intro p hp
    have hAccounted : p.1.Accounted :=
      run.invariant_of_mem
        (fun _ _ _ hAccounted hOk => hAccounted.next hOk)
        (table.opening_accounted hTotal) hp
    exact hAccounted.unpaid_eq_zero_iff
  rw [← hNone]
  unfold Config.accountedFor
  omega

end Runs

/-
  Player 0 bets 100, player 1 calls all-in with 50, and
  player 0 folds on the flop.
-/
def Event.uncalledBet : List Event :=
  proceeds 2 ++ [raiseTo 0 100] ++ proceeds 1 ++
    [act 1 .call] ++ proceeds 2 ++ [act 0 .fold] ++
    proceeds 5

/- The 50 chips nobody could call are in nobody's stack. -/
theorem Table.uncalledBet_lost :
    ∃ trace c,
      (numbered [200, 50] (by decide)).Run trace c ∧
      (numbered [200, 50] (by decide)).buyIns = 250 ∧
      c.pending = .done ∧
      c.accountedFor trace = 200 := by
  rcases exists_run (numbered [200, 50] (by decide))
      Event.uncalledBet
      (fun trace c => decide
        (c.pending = .done ∧ c.accountedFor trace = 200))
      (by decide +kernel) with
    ⟨trace, c, run, hTest⟩
  exact ⟨trace, c, run, by decide, of_decide_eq_true hTest⟩

theorem Table.uncalledBet_accountedFor_iff :
    ∃ trace c,
      (numbered [200, 50] (by decide)).Run trace c ∧
      c.pending = .done ∧
      (c.accountedFor trace =
          (numbered [200, 50] (by decide)).buyIns ↔
        ∀ p ∈ trace, p.1.Settles) := by
  rcases exists_run (numbered [200, 50] (by decide))
      Event.uncalledBet
      (fun _ c => decide (c.pending = .done))
      (by decide +kernel) with
    ⟨trace, c, run, hTest⟩
  have hRest := of_decide_eq_true hTest
  exact ⟨trace, c, run, hRest,
    run.accountedFor_eq_iff (by decide) hRest⟩

------------------------------------------------------------
-- The Two Ledgers
------------------------------------------------------------

/-
  At every point of a run, and so whenever an award begins,
  `pot_` is the sum of what the seated players put in: in
  words, and as numbers when the starting bankrolls fit a
  word.  This needs that nobody left chips behind.
-/
theorem Table.Run.pot_eq_stakes
    {table : Table}
    {trace : List (Config × Event)}
    {c : Config}
    (run : table.Run trace c)
    (hNothing : ∀ p ∈ trace, p.1.leftBehind = 0) :
    c.session.pot.toNat = c.session.stakes.sum % 2 ^ 32 ∧
      (table.buyIns < 2 ^ 32 →
        c.session.pot.toNat = c.session.stakes.sum) := by
  have hBalanced := run.balanced hNothing
  refine ⟨hBalanced, fun hTotal => ?_⟩
  have hSolvent := (run.accounted hTotal).solvent
  have hPotLt := c.session.pot.toNat_lt
  rw [hBalanced]
  exact Nat.mod_eq_of_lt
    (Nat.lt_of_le_of_lt hSolvent.1 hPotLt)

/-
  Player 0 calls the blind and leaves; player 1 folds.
-/
def Event.deadMoney : List Event :=
  proceeds 2 ++ [act 0 .call] ++ proceeds 1 ++
    [.removePlayer 0] ++ proceeds 1 ++ [act 1 .fold] ++
    proceeds 1

/- The leaver's 20 chips are in `pot_` and in no stake. -/
theorem Table.deadMoney_pot_ne_stakes :
    ∃ trace c,
      (numbered [1000, 1000, 1000] (by decide)).Run trace c ∧
      c.pending = .awardAllPots .tryStartNewHand ∧
      c.session.pot.toNat = 50 ∧
      c.session.stakes.sum = 30 := by
  rcases exists_run
      (numbered [1000, 1000, 1000] (by decide))
      Event.deadMoney
      (fun _ c => decide
        (c.pending = .awardAllPots .tryStartNewHand ∧
          c.session.pot.toNat = 50 ∧
          c.session.stakes.sum = 30))
      (by decide +kernel) with
    ⟨trace, c, run, hTest⟩
  exact ⟨trace, c, run, of_decide_eq_true hTest⟩

/-
  Player 0 leaves before he has put anything in, and
  player 1 raises to 60 before he folds to a raise to 200.
-/
def Event.cleanDeparture : List Event :=
  proceeds 2 ++ [.removePlayer 0] ++ proceeds 2 ++
    [raiseTo 1 60] ++ proceeds 1 ++ [raiseTo 2 200] ++
    proceeds 1 ++ [act 1 .fold] ++ proceeds 1

theorem Table.cleanDeparture_pot_eq_stakes :
    ∃ trace c,
      (numbered [1000, 1000, 1000] (by decide)).Run trace c ∧
      c.pending = .awardAllPots .tryStartNewHand ∧
      c.session.pot.toNat = c.session.stakes.sum := by
  rcases exists_run
      (numbered [1000, 1000, 1000] (by decide))
      Event.cleanDeparture
      (fun trace c => decide
        (c.pending = .awardAllPots .tryStartNewHand ∧
          ∀ p ∈ trace, p.1.leftBehind = 0))
      (by decide +kernel) with
    ⟨trace, c, run, hTest⟩
  rcases of_decide_eq_true hTest with ⟨hAward, hNothing⟩
  exact ⟨trace, c, run, hAward,
    (run.pot_eq_stakes hNothing).2 (by decide)⟩

end Server

end Poker

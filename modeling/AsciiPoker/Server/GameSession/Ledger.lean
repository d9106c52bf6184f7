import AsciiPoker.Server.GameSession.Stages

/-
  The two ledgers of the pot: `pot_` and the contributions
  of the seated players.

  They agree as long as nobody leaves money behind: a leaver
  who put chips into the hand takes them out of one ledger
  and not out of the other.

  Main declarations:
    * `GameSession.Balanced`
    * `Config.leftBehind`
    * `Table.Run.balanced`
-/

namespace Poker

namespace Server

open Protocol

namespace GameSession

------------------------------------------------------------
-- Contributions
------------------------------------------------------------

/- The stakes after a seated player's contribution. -/
theorem stakes_contribute
    {s : GameSession}
    {p : PlayerId}
    (amount : UInt32)
    (hNodup : s.players.Nodup)
    (hSeated : p ∈ s.players) :
    (s.contribute p amount).stakes.sum +
        (s.totalContributed.get p).toNat =
      s.stakes.sum +
        (s.totalContributed.get p +
          s.actualAmount p amount).toNat := by
  unfold stakes
  rw [(s.contribute_frame p amount).1]
  have hSum := List.sum_map_exchange
    (f := fun q =>
      ((s.contribute p amount).totalContributed.get q).toNat)
    (g := fun q => (s.totalContributed.get q).toNat)
    hNodup hSeated
    (fun q _ hNe => by
      rw [contribute_totalContributed,
        KeyMap.get_set_of_ne _ _ hNe])
  rw [hSum, contribute_totalContributed, KeyMap.get_set_self]

/-
  Both ledgers name the same amount, up to the word size
  that `pot_` is kept in.
-/
def Balanced
    (s : GameSession) : Prop :=
  s.pot.toNat = s.stakes.sum % 2 ^ 32

/- A contribution is entered in both ledgers. -/
theorem Balanced.contribute
    {s : GameSession}
    {p : PlayerId}
    (amount : UInt32)
    (hNodup : s.players.Nodup)
    (hSeated : p ∈ s.players)
    (hBalanced : s.Balanced) :
    (s.contribute p amount).Balanced := by
  have hStakes := stakes_contribute amount hNodup hSeated
  unfold Balanced at hBalanced ⊢
  rw [contribute_pot, UInt32.toNat_add, hBalanced]
  rw [UInt32.toNat_add] at hStakes
  have hSmall := (s.totalContributed.get p).toNat_lt
  omega

/- An accepted action keeps the ledgers balanced. -/
theorem Acts.balanced
    {s t : GameSession}
    {p : PlayerId}
    {action : Action}
    {amount : Option UInt32}
    (hActs : s.Acts p action amount t)
    (hNodup : s.players.Nodup)
    (hSeated : p ∈ s.players)
    (hBalanced : s.Balanced) :
    t.Balanced := by
  cases hActs with
  | fold => exact hBalanced
  | check => exact hBalanced
  | callNothing => exact hBalanced
  | call => exact hBalanced.contribute _ hNodup hSeated
  | raise => exact hBalanced.contribute _ hNodup hSeated

/- When nobody has put anything in, the stakes are none. -/
theorem stakes_sum_eq_zero
    {s : GameSession}
    (hNone : ∀ p ∈ s.players, s.totalContributed.get p = 0) :
    s.stakes.sum = 0 := by
  apply List.sum_eq_zero
  intro stake hStake
  rcases List.mem_map.mp hStake with ⟨p, hp, rfl⟩
  rw [hNone p hp]
  rfl

/- The ledgers of a freshly dealt hand. -/
theorem Dealt.balanced
    {s dealt posted : GameSession}
    {shuffle : Shuffle}
    (hNodup : s.players.Nodup)
    (hDealt : s.Dealt shuffle dealt)
    (hPosted : dealt.postBlinds = .ok posted) :
    posted.Balanced := by
  rcases hDealt.spec with
    ⟨chips, deck, hands, roundBets, total, rfl, _, _, hNone,
      _⟩
  rcases blinds_of_ok hPosted with ⟨sb, bb, hSb, hBb, rfl⟩
  refine Balanced.contribute (s := contribute _ sb SMALL_BLIND)
    BIG_BLIND ?_ ?_ (Balanced.contribute SMALL_BLIND ?_ ?_ ?_)
  · rw [(contribute_frame _ sb _).1]
    exact hNodup
  · rw [(contribute_frame _ sb _).1]
    exact List.mem_of_getElem? hBb
  · exact hNodup
  · exact List.mem_of_getElem? hSb
  · unfold Balanced
    rw [stakes_sum_eq_zero (fun p _ => hNone p)]
    rfl

------------------------------------------------------------
-- Departures
------------------------------------------------------------

/- The stakes lose what the leaver had put in. -/
theorem stakes_vacate
    {s : GameSession}
    {leaver : Leaver}
    (hNodup : s.players.Nodup)
    (hAt : s.players[leaver.removedIndex]? =
      some leaver.player) :
    (s.vacate leaver).stakes.sum +
        (s.totalContributed.get leaver.player).toNat =
      s.stakes.sum := by
  unfold stakes
  have hPerm := (players_perm hAt).map
    (fun p => (s.totalContributed.get p).toNat)
  rw [← hPerm.sum_eq, List.map_cons, List.sum_cons,
    vacate_players, vacate_totalContributed, Nat.add_comm]
  congr 1
  apply List.sum_map_congr
  intro p hp
  have hNe := ((mem_eraseIdx hNodup hAt).mp hp).2
  rw [KeyMap.get_erase_of_ne _ hNe]

/- A leaver without a stake leaves the ledgers balanced. -/
theorem Balanced.vacate
    {s : GameSession}
    {leaver : Leaver}
    (hNodup : s.players.Nodup)
    (hAt : s.players[leaver.removedIndex]? =
      some leaver.player)
    (hNothing : s.totalContributed.get leaver.player = 0)
    (hBalanced : s.Balanced) :
    (s.vacate leaver).Balanced := by
  have hStakes := stakes_vacate hNodup hAt
  rw [hNothing, UInt32.toNat_zero, Nat.add_zero] at hStakes
  unfold Balanced
  rw [vacate_pot, hStakes]
  exact hBalanced

end GameSession

------------------------------------------------------------
-- Runs
------------------------------------------------------------

/-
  What a leaver who is about to be erased has in the hand:
  nothing when he put nothing in, and nothing when his
  auto-fold left one player, who was then awarded the pot.
-/
def Config.leftBehind
    (c : Config) : UInt32 :=
  match c.pending with
  | .resume (.finishRemoval leaver) =>
      c.session.totalContributed.get leaver.player
  | _ => 0

/- A step at which no money is left keeps the ledgers. -/
theorem GameSession.Balanced.step
    {c d : Config}
    {e : Event}
    (hOrder : c.InOrder)
    (hNothing : c.leftBehind = 0)
    (hStep : Step c e d)
    (hBalanced : c.session.Balanced) :
    d.session.Balanced := by
  have hNodup := hOrder.1.nodup
  have hLeaver := hOrder.1.leaver
  cases hStep with
  | started hDealt hPosted hQuiet =>
      rcases hQuiet with ⟨_, _, rfl, _⟩
      have hPostedBalanced := hDealt.balanced hNodup hPosted
      exact hPostedBalanced
  | asked hAt hAct => exact hBalanced
  | passedOver hAt hAct hCloses => exact hBalanced
  | wonByFold hOne => exact hBalanced
  | street hMany hPhase hDeal hQuiet =>
      rcases hQuiet with ⟨_, _, rfl, _⟩
      exact hBalanced
  | riverClosed hMany hPhase => exact hBalanced
  | pastShowdown hMany hPhase => exact hBalanced
  | shownDown hQuiet hPending =>
      rcases hQuiet with ⟨_, _, rfl, _⟩
      exact hBalanced
  | singleWinner => exact hBalanced
  | awardedNothing hEmpty => exact hBalanced
  | awarded hFull hPaid hQuiet =>
      rcases hQuiet with ⟨_, _, rfl, _⟩
      unfold GameSession.Balanced
      rw [GameSession.stakes_sum_eq_zero
        (fun p _ => KeyMap.get_empty p)]
      rfl
  | handOver hEnough hChips => exact hBalanced
  | gameOver hOver => exact hBalanced
  | leftFew hFew hErased =>
      rcases hLeaver _ rfl with ⟨hAt, _⟩
      have hVacated := hBalanced.vacate hNodup hAt
        hNothing
      rcases hErased with rfl | rfl
      · exact hVacated
      · exact hVacated
  | leftOneActive hEnough hOne =>
      rcases hLeaver _ rfl with ⟨hAt, _⟩
      exact hBalanced.vacate hNodup hAt hNothing
  | leftClosing hEnough hMany hCloses =>
      rcases hLeaver _ rfl with ⟨hAt, _⟩
      exact hBalanced.vacate hNodup hAt hNothing
  | leftWaiting hEnough hMany hOther hOpen hQuiet =>
      rcases hLeaver _ rfl with ⟨hAt, _⟩
      rcases hQuiet with ⟨_, _, rfl, _⟩
      exact hBalanced.vacate hNodup hAt hNothing
  | unmapped hEnough hNone => exact hBalanced
  | rejected hEnough hPlayer => exact hBalanced
  | wonByAction hEnough hPlayer hAt hActs hQuiet hOne =>
      rcases hQuiet with ⟨_, _, rfl, _⟩
      exact hActs.balanced hNodup
        (List.mem_of_getElem? hAt) hBalanced
  | acted hEnough hPlayer hAt hActs hQuiet hMany hCloses =>
      rcases hQuiet with ⟨_, _, rfl, _⟩
      exact hActs.balanced hNodup
        (List.mem_of_getElem? hAt) hBalanced
  | notSeated hEnough hNone => exact hBalanced
  | leaving hEnough hPlayer hAt hCurrent hWas hPending =>
      exact hBalanced

/-
  The ledgers are balanced after every run in which nobody
  leaves chips behind.
-/
theorem Table.Run.balanced
    {table : Table}
    {trace : List (Config × Event)}
    {c : Config}
    (run : table.Run trace c)
    (hNothing : ∀ p ∈ trace, p.1.leftBehind = 0) :
    c.session.Balanced := by
  let Inv : Config → Prop :=
    fun c => c.InOrder ∧ c.session.Balanced
  have hKeep : ∀ c e d, Inv c → c.leftBehind = 0 →
      c.step e = .ok d → Inv d := by
    rintro c e d ⟨hOrder, hBalanced⟩ hNone hOk
    exact ⟨hOrder.step hOk,
      hBalanced.step hOrder hNone (step_of_ok hOk)⟩
  have hStart : Inv table.opening := by
    refine ⟨table.opening_inOrder, ?_⟩
    unfold GameSession.Balanced
    rw [GameSession.stakes_sum_eq_zero (fun _ _ => rfl)]
    rfl
  exact (run.invariant hKeep hNothing hStart).2

end Server

end Poker

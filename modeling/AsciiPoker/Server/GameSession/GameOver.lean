import AsciiPoker.Server.GameSession.Conservation
import AsciiPoker.Server.GameSession.TableStakes

/-
  A session after its game is over.

  `try_start_new_hand` declines when fewer than two players
  have chips, and leaves the session as it is: whoever is on
  turn can still act.  Nothing happens to the chips as long
  as he bets none of them, or is the only one in the hand
  and so is paid them back.

  Main declarations:
    * `GameSession.wager`, `GameSession.Harmless`
    * `Inert`, `Refunding`
    * `Table.Run.inert`
-/

namespace Poker

namespace Server

open Protocol

namespace GameSession

------------------------------------------------------------
-- Wagers
------------------------------------------------------------

/- The chips that an action of the player on turn moves. -/
def wager
    (s : GameSession)
    (p : PlayerId) : Action → Option UInt32 → UInt32
| .call, _ =>
    min (s.currentBet - s.roundBets.get p) (s.chips.get p)
| .raise, some total =>
    if s.currentBet < total ∧ s.roundBets.get p < total ∧
        (s.currentBet + s.lastRaiseIncrement ≤ total ∨
          s.roundBets.get p + s.chips.get p ≤ total) ∧
        total - s.roundBets.get p ≤ s.chips.get p then
      total - s.roundBets.get p
    else
      0
| _, _ => 0

/-
  An action that bets nothing, or a bet that its player is
  bound to be paid back: he is the only one in the hand, and
  nobody else has put anything in.
-/
def Harmless
    (s : GameSession)
    (p : PlayerId)
    (action : Action)
    (amount : Option UInt32) : Prop :=
  s.wager p action amount = 0 ∨
    (p ∉ s.foldedPlayers ∧ s.countActivePlayers = 1 ∧
      s.wager p action amount ≠ uint32Max ∧
      ∀ q ∈ s.players, s.totalContributed.get q = 0)

instance
    (s : GameSession)
    (p : PlayerId)
    (action : Action)
    (amount : Option UInt32) :
    Decidable (s.Harmless p action amount) :=
  inferInstanceAs (Decidable (_ ∨ _))

/- `t` is `s` with `amount` moved from a stack to the pot. -/
structure Moves
    (s t : GameSession)
    (p : PlayerId)
    (amount : UInt32) : Prop where
  chips_get : ∀ q, t.chips.get q =
    if q = p then
      s.chips.get p - amount
    else
      s.chips.get q
  pot_eq : t.pot = s.pot + amount
  total_get : ∀ q, t.totalContributed.get q =
    if q = p then
      s.totalContributed.get p + amount
    else
      s.totalContributed.get q

theorem moves_nothing
    (s : GameSession)
    (p : PlayerId) :
    s.Moves s p 0 where
  chips_get := fun q => by
    by_cases hEq : q = p
    · simp [hEq]
    · simp [hEq]
  pot_eq := by simp
  total_get := fun q => by
    by_cases hEq : q = p
    · simp [hEq]
    · simp [hEq]

theorem contribute_moves
    (s : GameSession)
    (p : PlayerId)
    (amount : UInt32) :
    s.Moves (s.contribute p amount) p
      (s.actualAmount p amount) where
  chips_get := fun q => by
    rw [contribute_chips, KeyMap.get_set]
  pot_eq := contribute_pot s p amount
  total_get := fun q => by
    rw [contribute_totalContributed, KeyMap.get_set]

/- An accepted action moves its wager into the pot. -/
theorem Acts.moves
    {s t : GameSession}
    {p : PlayerId}
    {action : Action}
    {amount : Option UInt32}
    (hActs : s.Acts p action amount t) :
    s.Moves t p (s.wager p action amount) := by
  cases hActs with
  | fold =>
      have hMoves := s.moves_nothing p
      exact ⟨hMoves.chips_get, hMoves.pot_eq,
        hMoves.total_get⟩
  | check => exact s.moves_nothing p
  | callNothing hLevel =>
      have hZero : s.wager p .call amount = 0 := by
        unfold wager
        rw [hLevel]
        apply UInt32.toNat_inj.mp
        rw [UInt32.toNat_min]
        exact Nat.zero_min _
      rw [hZero]
      exact s.moves_nothing p
  | call hOwed => exact s.contribute_moves p _
  | @raise total hHigher hMore hMinimum hEnough =>
      have hWager : s.wager p .raise (some total) =
          total - s.roundBets.get p :=
        if_pos ⟨hHigher, hMore, hMinimum, hEnough⟩
      have hMoves := s.contribute_moves p
        (total - s.roundBets.get p)
      rw [actualAmount_eq hEnough] at hMoves
      rw [hWager]
      exact ⟨hMoves.chips_get, hMoves.pot_eq,
        hMoves.total_get⟩

/- Whoever bets has not folded by it. -/
theorem Acts.foldedPlayers_of_wager
    {s t : GameSession}
    {p : PlayerId}
    {action : Action}
    {amount : Option UInt32}
    (hActs : s.Acts p action amount t)
    (hBets : s.wager p action amount ≠ 0) :
    t.foldedPlayers = s.foldedPlayers := by
  rcases hActs.foldedPlayers_eq with hSame | hFold
  · exact hSame
  · cases hActs with
    | fold => exact absurd rfl hBets
    | check => rfl
    | callNothing => rfl
    | call => exact (s.contribute_frame p _).2.2.2.2.1
    | raise => exact (s.contribute_frame p _).2.2.2.2.1

/- The only one in a hand: the others have folded. -/
theorem folded_of_countActivePlayers
    {s : GameSession}
    {p q : PlayerId}
    (hOne : s.countActivePlayers = 1)
    (hSeated : p ∈ s.players)
    (hIn : p ∉ s.foldedPlayers)
    (hOther : q ∈ s.players)
    (hNe : q ≠ p) :
    q ∈ s.foldedPlayers := by
  unfold countActivePlayers at hOne
  rw [List.countP_eq_length_filter,
    List.length_eq_one_iff] at hOne
  rcases hOne with ⟨x, hx⟩
  have hMem : ∀ r ∈ s.players, r ∉ s.foldedPlayers →
      r = x := by
    intro r hr hrIn
    have : r ∈ s.players.filter
        (fun r => r ∉ s.foldedPlayers) :=
      List.mem_filter.mpr ⟨hr, by simpa using hrIn⟩
    rw [hx] at this
    exact List.mem_singleton.mp this
  by_contra hStill
  exact hNe ((hMem q hOther hStill).trans
    (hMem p hSeated hIn).symm)

/- A player counts as having chips by his entry alone. -/
theorem countPlayersWithChips_congr
    {s t : GameSession}
    (hPlayers : t.players = s.players)
    (hChips : ∀ p, t.chips.get p = s.chips.get p) :
    t.countPlayersWithChips = s.countPlayersWithChips := by
  unfold countPlayersWithChips
  rw [hPlayers]
  apply List.countP_congr
  intro p _
  rw [hChips p]

end GameSession

------------------------------------------------------------
-- After the Game
------------------------------------------------------------

/- The call of a session that deals no hand and loses nobody. -/
def Pending.AtRest
    (pending : Pending) : Prop :=
  pending ≠ .start ∧ pending.leaver? = none

/- The chips are where they were when the game ended. -/
structure Inert
    (s₀ : GameSession)
    (c : Config) : Prop where
  atRest : c.pending.AtRest
  players_eq : c.session.players = s₀.players
  chips_get : ∀ p, c.session.chips.get p = s₀.chips.get p
  pot_eq : c.session.pot = 0

/-
  The only player in the hand has bet some of his chips and
  is about to be awarded them.
-/
structure Refunding
    (s₀ : GameSession)
    (c : Config) : Prop where
  awarding : c.pending = .handleSingleWinner ∨
    c.pending = .awardAllPots .tryStartNewHand
  players_eq : c.session.players = s₀.players
  bet : ∃ p ∈ c.session.players,
    p ∉ c.session.foldedPlayers ∧
    (∀ q ∈ c.session.players, q ≠ p →
      q ∈ c.session.foldedPlayers ∧
        c.session.totalContributed.get q = 0) ∧
    (∀ q, c.session.chips.get q =
      if q = p then
        s₀.chips.get p - c.session.pot
      else
        s₀.chips.get q) ∧
    c.session.totalContributed.get p = c.session.pot ∧
    c.session.pot ≠ uint32Max

/- The award of a refund puts every chip back. -/
theorem Refunding.award
    {s₀ s : GameSession}
    {d : Config}
    {e : Event}
    (hSeated : Config.Seated
      ⟨s, .awardAllPots .tryStartNewHand⟩)
    (hRefund : Refunding s₀
      ⟨s, .awardAllPots .tryStartNewHand⟩)
    (hStep : Step ⟨s, .awardAllPots .tryStartNewHand⟩ e d) :
    Inert s₀ d := by
  have hNodup : s.players.Nodup := hSeated.nodup
  have hFew : s.players.length ≤ 26 :=
    (hSeated.dealtIn (by simp)).1
  rcases hRefund.bet with
    ⟨p, hMem, hIn, hOthers, hChips, hStake, hTop⟩
  dsimp only at hMem hIn hOthers hChips hStake hTop
  cases hStep with
  | awardedNothing hEmpty =>
      refine ⟨⟨by simp, rfl⟩, hRefund.players_eq, ?_, hEmpty⟩
      intro q
      dsimp only
      rw [hChips q, hEmpty]
      by_cases hEq : q = p
      · simp [hEq]
      · simp [hEq]
  | @awarded _ t award _ shuffle hFull hPaid hQuiet =>
      have hStakes : s.stakes.sum = s.pot.toNat := by
        have hSum := List.sum_map_exchange
          (f := fun q => (s.totalContributed.get q).toNat)
          (g := fun _ => 0) hNodup hMem
          (fun q hq hNe => by
            rw [(hOthers q hq hNe).2]
            rfl)
        rw [← hStake]
        unfold GameSession.stakes
        simpa using hSum
      have hSettles : s.SettlesInFull := by
        refine ⟨hStakes.symm, p, hMem, hIn, hStake ▸ hTop,
          fun q hq => ?_⟩
        by_cases hEq : q = p
        · rw [hEq]
          exact UInt32.le_refl _
        · rw [(hOthers q hq hEq).2]
          exact UInt32.zero_le
      have hTotal :=
        GameSession.sidePotTotal_of_settlesInFull
          (by
            rw [hStakes]
            exact s.pot.toNat_lt)
          hSettles
      rcases GameSession.award_pays hNodup (by omega)
          hPaid with
        ⟨gain, hPays, hSplits, hWinnable⟩
      have hNone : ∀ q, q ≠ p → gain q = 0 := by
        intro q hNe
        by_contra hSome
        have hq := hSplits.support q hSome
        rcases List.getElem?_of_mem hq with ⟨i, hi⟩
        have hZero := GameSession.winnableAt_of_folded hi
          (hOthers q hq hNe).1
        have hLe := hWinnable i q hi
        change gain q ≤ s.winnableAt i at hLe
        omega
      have hMine : gain p = s.pot.toNat := by
        have hSum := List.sum_map_exchange
          (f := gain) (g := fun _ => 0) hNodup hMem
          (fun q _ hNe => hNone q hNe)
        rw [hSplits.total, hTotal, hStakes] at hSum
        simpa using hSum.symm
      have hPlayers := hPays.players_eq
      rcases hQuiet with ⟨_, _, rfl, _⟩
      refine ⟨⟨by simp, rfl⟩,
        hPlayers.trans hRefund.players_eq, fun q => ?_, rfl⟩
      change award.session.chips.get q = _
      rw [hPays.chips_get q, hChips q]
      by_cases hEq : q = p
      · rw [if_pos hEq, hEq, hMine, UInt32.ofNat_toNat,
          UInt32.sub_add_cancel]
      · rw [if_neg hEq, hNone q hEq]
        simp

/- A step in which nobody leaves and no chips are at risk. -/
def Config.Harmless
    (c : Config) : Event → Prop
| .proceed _ => True
| .applyAction connection action amount =>
    match c.session.getPlayer connection with
    | none => True
    | some p =>
        c.session.players[c.session.currentPlayerIndex]? =
          some p →
        c.session.Harmless p action amount
| .removePlayer _ => False

instance
    (c : Config)
    (e : Event) :
    Decidable (c.Harmless e) :=
  match e with
  | .proceed _ => .isTrue trivial
  | .removePlayer _ => .isFalse id
  | .applyAction connection action amount =>
      match h : c.session.getPlayer connection with
      | none => .isTrue (by simp [Config.Harmless, h])
      | some p =>
          decidable_of_iff
            (c.session.players[
                c.session.currentPlayerIndex]? = some p →
              c.session.Harmless p action amount)
            (by simp [Config.Harmless, h])

theorem Config.Harmless.act
    {c : Config}
    {connection : ConnId}
    {action : Action}
    {amount : Option UInt32}
    {p : PlayerId}
    (hHarmless :
      c.Harmless (.applyAction connection action amount))
    (hPlayer : c.session.getPlayer connection = some p)
    (hAt :
      c.session.players[c.session.currentPlayerIndex]? =
        some p) :
    c.session.Harmless p action amount := by
  simp only [Config.Harmless, hPlayer] at hHarmless
  exact hHarmless hAt

/- A harmless action keeps the chips or is about to. -/
theorem Inert.acts
    {s₀ s t u : GameSession}
    {p : PlayerId}
    {action : Action}
    {amount : Option UInt32}
    (hInert : Inert s₀ ⟨s, .done⟩)
    (hSeated : p ∈ s.players)
    (hHarmless : s.Harmless p action amount)
    (hActs : s.Acts p action amount t)
    (hQuiet : (t.recordPlayerAction p action).Quiet u) :
    (u.players = s₀.players ∧
      (∀ q, u.chips.get q = s₀.chips.get q) ∧
      u.pot = 0) ∨
    (u.countActivePlayers = 1 ∧
      Refunding s₀ ⟨u, .handleSingleWinner⟩) := by
  have hPlayers := hActs.frame.1
  have hMoves := hActs.moves
  have hChips := hInert.chips_get
  have hPot := hInert.pot_eq
  have hSeats := hInert.players_eq
  dsimp only at hChips hPot hSeats
  rcases hQuiet with ⟨_, _, rfl, _⟩
  by_cases hZero : s.wager p action amount = 0
  · left
    rw [hZero] at hMoves
    refine ⟨hPlayers.trans hSeats, fun q => ?_, ?_⟩
    · change t.chips.get q = _
      rw [hMoves.chips_get q, ← hChips q]
      by_cases hEq : q = p
      · simp [hEq]
      · simp [hEq]
    · change t.pot = 0
      rw [hMoves.pot_eq, hPot]
      simp
  · right
    rcases hHarmless with
      hNone | ⟨hIn, hOne, hTop, hNothing⟩
    · exact absurd hNone hZero
    have hFolded := hActs.foldedPlayers_of_wager hZero
    have hBet : t.pot = s.wager p action amount := by
      rw [hMoves.pot_eq, hPot, UInt32.zero_add]
    refine ⟨?_, Or.inl rfl, hPlayers.trans hSeats, p, ?_, ?_,
      ?_, ?_, ?_, ?_⟩
    · change t.countActivePlayers = 1
      unfold GameSession.countActivePlayers at hOne ⊢
      rw [hPlayers, hFolded]
      exact hOne
    · change p ∈ t.players
      rw [hPlayers]
      exact hSeated
    · change p ∉ t.foldedPlayers
      rw [hFolded]
      exact hIn
    · change ∀ q ∈ t.players, q ≠ p →
        q ∈ t.foldedPlayers ∧ t.totalContributed.get q = 0
      rw [hPlayers, hFolded]
      intro q hq hNe
      rw [hMoves.total_get q, if_neg hNe]
      exact ⟨GameSession.folded_of_countActivePlayers hOne
        hSeated hIn hq hNe, hNothing q hq⟩
    · change ∀ q, t.chips.get q = if q = p then
        s₀.chips.get p - t.pot else s₀.chips.get q
      intro q
      rw [hMoves.chips_get q, hBet, hChips p, hChips q]
    · change t.totalContributed.get p = t.pot
      rw [hMoves.total_get p, if_pos rfl, hNothing p hSeated,
        hBet, UInt32.zero_add]
    · change t.pot ≠ uint32Max
      rw [hBet]
      exact hTop

/- What closing a round goes on with deals no hand. -/
theorem GameSession.Closes.atRest
    {s : GameSession}
    {pending : Pending}
    (hCloses : s.Closes pending) :
    pending.AtRest :=
  ⟨closes_ne_start hCloses, closes_leaver? hCloses⟩

/- A session stays inert, or pays a bet back. -/
theorem Inert.step
    {s₀ : GameSession}
    {c d : Config}
    {e : Event}
    (hOver : s₀.countPlayersWithChips < 2)
    (hInert : Inert s₀ c)
    (hHarmless : c.Harmless e)
    (hStep : Step c e d) :
    Inert s₀ d ∨ Refunding s₀ d := by
  rcases hInert with ⟨⟨hStart, hNobody⟩, hSeats, hChips, hPot⟩
  cases hStep with
  | started hDealt hPosted hQuiet => exact absurd rfl hStart
  | asked hAt hAct =>
      exact Or.inl ⟨⟨by simp, rfl⟩, hSeats, hChips, hPot⟩
  | passedOver hAt hAct hCloses =>
      exact Or.inl ⟨hCloses.atRest, hSeats, hChips, hPot⟩
  | wonByFold hOne =>
      exact Or.inl ⟨⟨by simp, rfl⟩, hSeats, hChips, hPot⟩
  | street hMany hPhase hDeal hQuiet =>
      rcases hQuiet with ⟨_, _, rfl, _⟩
      exact Or.inl ⟨⟨by simp, rfl⟩, hSeats, hChips, hPot⟩
  | riverClosed hMany hPhase =>
      exact Or.inl ⟨⟨by simp, rfl⟩, hSeats, hChips, hPot⟩
  | pastShowdown hMany hPhase =>
      exact Or.inl ⟨⟨by simp, rfl⟩, hSeats, hChips, hPot⟩
  | shownDown hQuiet hPending =>
      rcases hQuiet with ⟨_, _, rfl, _⟩
      rcases hPending with ⟨_, rfl⟩ | ⟨_, rfl⟩ | ⟨_, rfl⟩
      · exact Or.inl ⟨⟨by simp, rfl⟩, hSeats, hChips, hPot⟩
      · exact Or.inl ⟨⟨by simp, rfl⟩, hSeats, hChips, hPot⟩
      · exact Or.inl ⟨⟨by simp, rfl⟩, hSeats, hChips, hPot⟩
  | singleWinner =>
      exact Or.inl ⟨⟨by simp, rfl⟩, hSeats, hChips, hPot⟩
  | @awardedNothing s next shuffle hEmpty =>
      cases next with
      | tryStartNewHand =>
          exact Or.inl ⟨⟨by simp, rfl⟩, hSeats, hChips, hPot⟩
      | finishRemoval l => cases hNobody
  | awarded hFull hPaid hQuiet => exact absurd hPot hFull
  | handOver hEnough hMany =>
      have hSame := GameSession.countPlayersWithChips_congr
        hSeats hChips
      dsimp only at hSame
      omega
  | gameOver hEnd =>
      exact Or.inl ⟨⟨by simp, rfl⟩, hSeats, hChips, hPot⟩
  | leftFew hFew hErased => cases hNobody
  | leftOneActive hEnough hOne => cases hNobody
  | leftClosing hEnough hMany hCloses => cases hNobody
  | leftWaiting hEnough hMany hOther hOpen hQuiet =>
      cases hNobody
  | unmapped hEnough hNone =>
      exact Or.inl ⟨⟨by simp, rfl⟩, hSeats, hChips, hPot⟩
  | rejected hEnough hPlayer =>
      exact Or.inl ⟨⟨by simp, rfl⟩, hSeats, hChips, hPot⟩
  | wonByAction hEnough hPlayer hAt hActs hQuiet hOne =>
      have hRest : Inert s₀ ⟨_, .done⟩ :=
        ⟨⟨by simp, rfl⟩, hSeats, hChips, hPot⟩
      rcases hRest.acts (List.mem_of_getElem? hAt)
          (hHarmless.act hPlayer hAt) hActs hQuiet with
        ⟨hSeats', hChips', hPot'⟩ | ⟨_, hRefund⟩
      · exact Or.inl
          ⟨⟨by simp, rfl⟩, hSeats', hChips', hPot'⟩
      · exact Or.inr hRefund
  | acted hEnough hPlayer hAt hActs hQuiet hMany hCloses =>
      have hRest : Inert s₀ ⟨_, .done⟩ :=
        ⟨⟨by simp, rfl⟩, hSeats, hChips, hPot⟩
      rcases hRest.acts (List.mem_of_getElem? hAt)
          (hHarmless.act hPlayer hAt) hActs hQuiet with
        ⟨hSeats', hChips', hPot'⟩ | ⟨hOne, _⟩
      · exact Or.inl ⟨hCloses.atRest, hSeats', hChips', hPot'⟩
      · exact absurd hOne hMany
  | notSeated hEnough hNone =>
      exact Or.inl ⟨⟨by simp, rfl⟩, hSeats, hChips, hPot⟩
  | leaving hEnough hPlayer hAt hCurrent hWas hPending =>
      exact absurd hHarmless id

/- A refund is awarded and leaves the session inert. -/
theorem Refunding.step
    {s₀ : GameSession}
    {c d : Config}
    {e : Event}
    (hSeated : c.Seated)
    (hRefund : Refunding s₀ c)
    (hStep : Step c e d) :
    Inert s₀ d ∨ Refunding s₀ d := by
  rcases c with ⟨s, pending⟩
  rcases hRefund.awarding with hWon | hAward
  · cases hWon
    cases hStep with
    | singleWinner =>
        exact Or.inr
          ⟨Or.inr rfl, hRefund.players_eq, hRefund.bet⟩
  · cases hAward
    exact Or.inl (hRefund.award hSeated hStep)

section Runs

variable {table : Table}
variable {trace later : List (Config × Event)}
variable {s₀ : GameSession}
variable {c : Config}

/-
  After `try_start_new_hand` has declined for want of two
  players with chips, harmless calls leave every stack and
  the empty pot as they are.
-/
theorem Table.Run.inert
    (run : table.Run trace ⟨s₀, .resume .tryStartNewHand⟩)
    (hOver : s₀.countPlayersWithChips < 2)
    (sequel : Transition.Run Config.step
      ⟨s₀, .resume .tryStartNewHand⟩ later c)
    (hHarmless : ∀ p ∈ later, p.1.Harmless p.2)
    (hRest : c.pending = .done) :
    (∀ p, c.session.chips.get p = s₀.chips.get p) ∧
      c.session.pot = 0 := by
  let Inv : Config → Prop :=
    fun c => c.InOrder ∧ (Inert s₀ c ∨ Refunding s₀ c)
  have hKeep : ∀ c e d, Inv c → c.Harmless e →
      c.step e = .ok d → Inv d := by
    rintro c e d ⟨hOrder, hState⟩ hHarmless hOk
    have hStep := step_of_ok hOk
    refine ⟨hOrder.step hOk, ?_⟩
    rcases hState with hInert | hRefund
    · exact hInert.step hOver hHarmless hStep
    · exact hRefund.step hOrder.1 hStep
  have hOrder := run.inOrder
  have hStart : Inv ⟨s₀, .resume .tryStartNewHand⟩ :=
    ⟨hOrder, Or.inl
      ⟨⟨by simp, rfl⟩, rfl, fun _ => rfl, hOrder.2.1⟩⟩
  rcases (sequel.invariant hKeep hHarmless hStart).2 with
    hInert | hRefund
  · exact ⟨hInert.chips_get, hInert.pot_eq⟩
  · rcases hRefund.awarding with hWon | hAward
    · rw [hRest] at hWon
      cases hWon
    · rw [hRest] at hAward
      cases hAward

end Runs

/- Player 1 takes the 20 chips of player 0 in one hand. -/
def Event.lastHand : List Event :=
  proceeds 2 ++ [act 0 .call] ++ proceeds 1 ++
    [act 1 .check] ++ proceeds 2 ++ [act 1 .check] ++
    proceeds 2 ++ [act 1 .check] ++ proceeds 2 ++
    [act 1 .check] ++ proceeds 3

/- Whether a step is an action or belongs to one. -/
def Event.isDeparture : Event → Bool
| .removePlayer _ => true
| _ => false

/- A raise after the game leaves 100 chips in the pot. -/
theorem Table.raise_after_gameOver :
    ∃ trace s₀ later c,
      (numbered [20, 200] (by decide)).Run trace
        ⟨s₀, .resume .tryStartNewHand⟩ ∧
      s₀.countPlayersWithChips < 2 ∧
      Transition.Run Config.step
        ⟨s₀, .resume .tryStartNewHand⟩ later c ∧
      (∀ p ∈ later, p.2.isDeparture = false) ∧
      c.pending = .done ∧
      c.session.pot = 100 ∧
      c.session.chips.get 1 ≠ s₀.chips.get 1 := by
  rcases exists_sequel (numbered [20, 200] (by decide))
      Event.lastHand
      (Event.proceeds 1 ++ [Event.raiseTo 1 100] ++
        Event.proceeds 1)
      (fun c₀ later c => decide
        (c₀.pending = .resume .tryStartNewHand ∧
          c₀.session.countPlayersWithChips < 2 ∧
          (∀ p ∈ later, p.2.isDeparture = false) ∧
          c.pending = .done ∧ c.session.pot = 100 ∧
          c.session.chips.get 1 ≠ c₀.session.chips.get 1))
      (by decide +kernel) with
    ⟨trace, ⟨s₀, pending⟩, later, c, run, sequel, hTest⟩
  rcases of_decide_eq_true hTest with
    ⟨hDeclines, hOver, hActions, hEnd⟩
  cases hDeclines
  exact ⟨trace, s₀, later, c, run, hOver, sequel, hActions,
    hEnd⟩

/- A check and a fold after the game change no stack. -/
theorem Table.check_after_gameOver :
    ∃ trace s₀ later c,
      (numbered [20, 200] (by decide)).Run trace
        ⟨s₀, .resume .tryStartNewHand⟩ ∧
      Transition.Run Config.step
        ⟨s₀, .resume .tryStartNewHand⟩ later c ∧
      (∀ p, c.session.chips.get p = s₀.chips.get p) ∧
      c.session.pot = 0 := by
  rcases exists_sequel (numbered [20, 200] (by decide))
      Event.lastHand
      (Event.proceeds 1 ++ [Event.act 1 .check] ++
        Event.proceeds 1 ++ [Event.raiseTo 0 40] ++
        [Event.act 1 .fold] ++ Event.proceeds 3)
      (fun c₀ later c => decide
        (c₀.pending = .resume .tryStartNewHand ∧
          c₀.session.countPlayersWithChips < 2 ∧
          (∀ p ∈ later, p.1.Harmless p.2) ∧
          c.pending = .done))
      (by decide +kernel) with
    ⟨trace, ⟨s₀, pending⟩, later, c, run, sequel, hTest⟩
  rcases of_decide_eq_true hTest with
    ⟨hDeclines, hOver, hHarmless, hRest⟩
  cases hDeclines
  exact ⟨trace, s₀, later, c, run, sequel,
    run.inert hOver sequel hHarmless hRest⟩

end Server

end Poker

import AsciiPoker.Common.SidePotLayers
import AsciiPoker.Server.GameSession.Hand

/-
  What an award pays to whom.

  Main declarations:
    * `GameSession.Pays`
    * `GameSession.payPot_pays`, `GameSession.payPots_pays`
-/

------------------------------------------------------------
-- Payments
------------------------------------------------------------

namespace Poker

namespace Server

open Protocol

namespace GameSession

/- `t` is `s` with each player paid his gain. -/
structure Pays
    (s t : GameSession)
    (gain : PlayerId → Nat) : Prop where
  frame : ∃ chips, t = { s with chips := chips }
  chips_get : ∀ p,
    t.chips.get p = s.chips.get p + UInt32.ofNat (gain p)
  isSome : ∀ p,
    (s.chips.find p).isSome → (t.chips.find p).isSome

theorem Pays.refl
    (s : GameSession) :
    s.Pays s (fun _ => 0) where
  frame := ⟨s.chips, rfl⟩
  chips_get := fun p => by simp
  isSome := fun p h => h

theorem Pays.trans
    {s t u : GameSession}
    {gain more : PlayerId → Nat}
    (hFirst : s.Pays t gain)
    (hSecond : t.Pays u more) :
    s.Pays u (fun p => gain p + more p) where
  frame := by
    rcases hFirst.frame with ⟨chips, rfl⟩
    rcases hSecond.frame with ⟨chips', rfl⟩
    exact ⟨chips', rfl⟩
  chips_get := fun p => by
    rw [hSecond.chips_get, hFirst.chips_get,
      UInt32.ofNat_add, UInt32.add_assoc]
  isSome := fun p h => hSecond.isSome p (hFirst.isSome p h)

/- Paying leaves every seat where it is. -/
theorem Pays.players_eq
    {s t : GameSession}
    {gain : PlayerId → Nat}
    (hPays : s.Pays t gain) :
    t.players = s.players := by
  rcases hPays.frame with ⟨chips, rfl⟩
  rfl

/- A single credit. -/
theorem credit_pays
    (s : GameSession)
    (player : PlayerId)
    (amount : UInt32) :
    s.Pays (s.credit player amount)
      (fun p => if p = player then amount.toNat else 0) where
  frame := ⟨_, rfl⟩
  chips_get := fun p => by
    by_cases hEq : p = player
    · simp [credit, hEq]
    · simp [credit, KeyMap.get_set, hEq]
  isSome := fun p h => by
    by_cases hEq : p = player
    · simp [credit, KeyMap.find_set, hEq]
    · simpa [credit, KeyMap.find_set, hEq] using h

/-
  `amount` chips are split among some of the seated players,
  all of them among `payees`.
-/
structure Splits
    (players payees : List PlayerId)
    (gain : PlayerId → Nat)
    (amount : Nat) : Prop where
  total : (players.map gain).sum = amount
  support : ∀ p, gain p ≠ 0 → p ∈ payees

theorem Splits.zero
    (players payees : List PlayerId) :
    Splits players payees (fun _ => 0) 0 where
  total := by simp
  support := fun p h => absurd rfl h

theorem Splits.add
    {players payees : List PlayerId}
    {gain more : PlayerId → Nat}
    {amount rest : Nat}
    (hFirst : Splits players payees gain amount)
    (hSecond : Splits players payees more rest) :
    Splits players payees (fun p => gain p + more p)
      (amount + rest) where
  total := by
    rw [← hFirst.total, ← hSecond.total, List.sum_map_add]
  support := fun p h => by
    by_cases hGain : gain p = 0
    · exact hSecond.support p (by omega)
    · exact hFirst.support p hGain

/- Chips given to one seated player are a split of them. -/
theorem Splits.single
    {players payees : List PlayerId}
    {player : PlayerId}
    (amount : Nat)
    (hNodup : players.Nodup)
    (hSeated : player ∈ players)
    (hPayee : player ∈ payees) :
    Splits players payees
      (fun p => if p = player then amount else 0) amount where
  total := by
    have hSum := List.sum_map_exchange
      (f := fun p => if p = player then amount else 0)
      (g := fun _ => 0) hNodup hSeated
      (fun p _ hNe => by simp [hNe])
    simpa using hSum
  support := fun p h => by
    by_cases hEq : p = player
    · exact hEq ▸ hPayee
    · simp [hEq] at h

/- Nobody gets more than what is split. -/
theorem Splits.le
    {players payees : List PlayerId}
    {gain : PlayerId → Nat}
    {amount : Nat}
    {p : PlayerId}
    (hSplits : Splits players payees gain amount)
    (hSeated : p ∈ players) :
    gain p ≤ amount := by
  rw [← hSplits.total]
  exact List.le_sum_map gain hSeated

------------------------------------------------------------
-- Winners
------------------------------------------------------------

/- The loop over the contenders drops and keeps players. -/
theorem winnersLoop_sublist
    {s : GameSession}
    {contenders winners found : List PlayerId}
    {best : HandValue}
    (hOk : s.winnersLoop contenders best winners = .ok found) :
    found.Sublist (winners ++ contenders) ∧
      (winners ++ contenders ≠ [] → found ≠ []) := by
  induction contenders generalizing best winners with
  | nil =>
      cases hOk
      simp
  | cons player rest ih =>
      unfold winnersLoop at hOk
      rcases Except.bind_eq_ok.mp hOk with ⟨value, _, hRest⟩
      by_cases hBetter : winners = [] ∨ best < value
      · simp only [if_pos hBetter] at hRest
        rcases ih hRest with ⟨hSub, hSome⟩
        refine ⟨hSub.trans ?_, fun _ => hSome (by simp)⟩
        exact List.sublist_append_right winners _
      · simp only [if_neg hBetter] at hRest
        by_cases hEqual : value = best
        · simp only [if_pos hEqual] at hRest
          rcases ih hRest with ⟨hSub, hSome⟩
          refine ⟨by simpa using hSub, fun _ => hSome (by simp)⟩
        · simp only [if_neg hEqual] at hRest
          rcases ih hRest with ⟨hSub, hSome⟩
          refine ⟨hSub.trans ?_, fun _ => hSome ?_⟩
          · exact List.Sublist.append (List.Sublist.refl _)
              (List.sublist_cons_self player rest)
          · intro hNil
            exact hBetter (Or.inl (by simp_all))

/- The winners are contenders; contenders have a winner. -/
theorem findWinnersAmong_sublist
    {s : GameSession}
    {contenders winners : List PlayerId}
    (hOk : s.findWinnersAmong contenders = .ok winners) :
    winners.Sublist contenders ∧
      (contenders ≠ [] → winners ≠ []) := by
  unfold findWinnersAmong at hOk
  split at hOk
  next =>
    cases hOk
    simp
  next winner =>
    cases hOk
    simp
  next =>
    simpa using winnersLoop_sublist hOk

------------------------------------------------------------
-- Paying One Pot
------------------------------------------------------------

/- Paying a winner is a credit. -/
theorem payWinner_session
    {share : UInt32}
    {award paid : Award}
    {winner : PlayerId}
    (hOk : payWinner share award winner = .ok paid) :
    paid.session = award.session.credit winner share := by
  unfold payWinner at hOk
  by_cases hKnown :
      (award.session.credit winner share).names winner ∈
        award.winnerNames
  · simp only [if_pos hKnown] at hOk
    cases hOk
    rfl
  · simp only [if_neg hKnown] at hOk
    rcases Except.bind_eq_ok.mp hOk with ⟨label, _, hEnd⟩
    cases hEnd
    rfl

/- Paying a pot touches nothing but stacks. -/
theorem payPot_frame
    {award paid : Award}
    {pot : SidePot}
    (hOk : payPot award pot = .ok paid) :
    ∃ chips,
      paid.session = { award.session with chips := chips } := by
  unfold payPot at hOk
  rcases Except.bind_eq_ok.mp hOk with ⟨contenders, _, hRest⟩
  rcases Except.bind_eq_ok.mp hRest with ⟨winners, _, hPaid⟩
  have hShare : ∀ share : UInt32, ∀ winner ∈ winners,
      ∀ u v : Award,
      (∃ chips, u.session =
        { award.session with chips := chips }) →
      payWinner share u winner = .ok v →
      ∃ chips, v.session =
        { award.session with chips := chips } := by
    rintro share winner _ u v ⟨chips, hFrame⟩ hOne
    rw [payWinner_session hOne, hFrame]
    exact ⟨_, rfl⟩
  cases winners with
  | nil =>
      cases hPaid
      exact ⟨_, rfl⟩
  | cons front rest =>
      dsimp only at hPaid
      by_cases hZero : pot.amount = 0
      · rw [if_pos hZero] at hPaid
        cases hPaid
        exact ⟨_, rfl⟩
      · rw [if_neg hZero] at hPaid
        rcases Except.bind_eq_ok.mp hPaid with
          ⟨each, hEach, hEnd⟩
        have hShares := List.foldlM_invariant (hShare _) hEach
          ⟨_, rfl⟩
        rcases hShares with ⟨chips, hFrame⟩
        cases hEnd
        dsimp only
        rw [hFrame]
        split
        · exact ⟨_, rfl⟩
        · exact ⟨_, rfl⟩

theorem payPots_frame
    {award paid : Award}
    {pots : List SidePot}
    (hOk : pots.foldlM payPot award = .ok paid) :
    ∃ chips,
      paid.session = { award.session with chips := chips } := by
  have hKeep : ∀ pot ∈ pots, ∀ u v : Award,
      (∃ chips, u.session =
        { award.session with chips := chips }) →
      payPot u pot = .ok v →
      ∃ chips, v.session =
        { award.session with chips := chips } := by
    rintro pot _ u v ⟨chips, hFrame⟩ hOne
    rcases payPot_frame hOne with ⟨chips', hFrame'⟩
    rw [hFrame', hFrame]
    exact ⟨_, rfl⟩
  have hAll := List.foldlM_invariant hKeep hOk ⟨_, rfl⟩
  exact hAll

/- Every winner of a pot is paid one share. -/
theorem payWinners_pays
    {share : UInt32}
    {award paid : Award}
    {players winners : List PlayerId}
    (hNodup : players.Nodup)
    (hSeated : ∀ p ∈ winners, p ∈ players)
    (hOk : winners.foldlM (payWinner share) award =
      .ok paid) :
    ∃ gain,
      award.session.Pays paid.session gain ∧
        Splits players winners gain
          (winners.length * share.toNat) := by
  suffices hAmong : ∀ payees, (∀ p ∈ winners, p ∈ payees) →
      ∃ gain,
        award.session.Pays paid.session gain ∧
          Splits players payees gain
            (winners.length * share.toNat) from
    hAmong winners (fun p hp => hp)
  intro payees hPayees
  induction winners generalizing award with
  | nil =>
      cases hOk
      refine ⟨fun _ => 0, Pays.refl _, ?_⟩
      simpa using Splits.zero players payees
  | cons winner winners ih =>
      rw [List.foldlM_cons, Except.bind_eq_ok] at hOk
      rcases hOk with ⟨next, hHead, hTail⟩
      rcases ih (fun p hp => hSeated p
          (List.mem_cons_of_mem _ hp)) hTail
          (fun p hp => hPayees p
            (List.mem_cons_of_mem _ hp)) with
        ⟨gain, hPays, hSplits⟩
      have hFirst := credit_pays award.session winner share
      rw [← payWinner_session hHead] at hFirst
      refine ⟨_, hFirst.trans hPays, ?_⟩
      have hSingle := Splits.single share.toNat hNodup
        (hSeated winner (List.mem_cons_self ..))
        (hPayees winner (List.mem_cons_self ..))
      have hLength :
          (winner :: winners).length * share.toNat =
            share.toNat + winners.length * share.toNat := by
        rw [List.length_cons, Nat.add_mul, Nat.one_mul,
          Nat.add_comm]
      rw [hLength]
      exact hSingle.add hSplits

/- The front winner is paid what the shares leave over. -/
theorem payRemainder_pays
    {players payees : List PlayerId}
    {front : PlayerId}
    (s : GameSession)
    (remainder : UInt32)
    (hNodup : players.Nodup)
    (hSeated : front ∈ players)
    (hPayee : front ∈ payees) :
    ∃ gain,
      s.Pays
        (if 0 < remainder then
          s.credit front remainder
        else
          s)
        gain ∧
      Splits players payees gain remainder.toNat := by
  by_cases hPos : 0 < remainder
  · rw [if_pos hPos]
    exact ⟨_, credit_pays s front remainder,
      Splits.single _ hNodup hSeated hPayee⟩
  · have hZero : remainder.toNat = 0 := by
      rw [UInt32.pos_iff_toNat_pos] at hPos
      omega
    rw [if_neg hPos, hZero]
    exact ⟨_, Pays.refl s, Splits.zero players payees⟩

/- The contenders of a pot sit at its indices. -/
theorem contenders_of_ok
    {s : GameSession}
    {indices : List Nat}
    {contenders : List PlayerId}
    (hOk : indices.mapM s.playerAt = .ok contenders) :
    contenders.length = indices.length ∧
      ∀ p ∈ contenders,
        ∃ i ∈ indices, s.players[i]? = some p := by
  have hAll := List.mapM_eq_ok_forall₂ hOk
  refine ⟨hAll.length_eq.symm, ?_⟩
  clear hOk
  induction hAll with
  | nil => simp
  | cons hHead _ ih =>
      intro p hp
      rcases List.mem_cons.mp hp with rfl | hRest
      · exact ⟨_, List.mem_cons_self ..,
          playerAt_eq_ok.mp hHead⟩
      · rcases ih p hRest with ⟨i, hi, hAt⟩
        exact ⟨i, List.mem_cons_of_mem _ hi, hAt⟩

/- Shares and remainder make up the pot. -/
theorem shares_add_remainder
    {count : Nat}
    (amount : UInt32)
    (hFew : count < 2 ^ 32) :
    count * (amount / UInt32.ofNat count).toNat +
      (amount % UInt32.ofNat count).toNat =
        amount.toNat := by
  rw [UInt32.toNat_div, UInt32.toNat_mod,
    UInt32.toNat_ofNat_of_lt' hFew]
  exact Nat.div_add_mod _ _

/-
  A pot that somebody can win is paid out in full, to its
  contenders.
-/
theorem payPot_pays
    {award paid : Award}
    {pot : SidePot}
    (hNodup : award.session.players.Nodup)
    (hFew : pot.eligiblePlayerIndices.length < 2 ^ 32)
    (hSome : pot.eligiblePlayerIndices ≠ [])
    (hOk : payPot award pot = .ok paid) :
    ∃ payees gain,
      (∀ p ∈ payees, ∃ i ∈ pot.eligiblePlayerIndices,
        award.session.players[i]? = some p) ∧
      award.session.Pays paid.session gain ∧
      Splits award.session.players payees gain
        pot.amount.toNat := by
  unfold payPot at hOk
  rcases Except.bind_eq_ok.mp hOk with
    ⟨contenders, hContenders, hRest⟩
  rcases Except.bind_eq_ok.mp hRest with
    ⟨winners, hWinners, hPaid⟩
  rcases contenders_of_ok hContenders with ⟨hLength, hAt⟩
  rcases findWinnersAmong_sublist hWinners with
    ⟨hSub, hNonempty⟩
  have hSeats : ∀ p ∈ winners,
      ∃ i ∈ pot.eligiblePlayerIndices,
        award.session.players[i]? = some p :=
    fun p hp => hAt p (hSub.subset hp)
  have hSeated : ∀ p ∈ winners,
      p ∈ award.session.players := by
    intro p hp
    rcases hSeats p hp with ⟨i, _, hi⟩
    exact List.mem_of_getElem? hi
  refine ⟨winners, ?_⟩
  cases hFront : winners with
  | nil =>
      have hNil : contenders = [] := by
        by_contra hNe
        exact hNonempty hNe hFront
      rw [hNil] at hLength
      exact absurd
        (List.eq_nil_of_length_eq_zero hLength.symm) hSome
  | cons front rest =>
      rw [hFront] at hPaid hSeats hSeated
      dsimp only at hPaid
      by_cases hZero : pot.amount = 0
      · rw [if_pos hZero] at hPaid
        cases hPaid
        refine ⟨fun _ => 0, hSeats, Pays.refl _, ?_⟩
        simpa [hZero] using Splits.zero _ _
      · rw [if_neg hZero] at hPaid
        rcases Except.bind_eq_ok.mp hPaid with
          ⟨each, hEach, hEnd⟩
        rcases payWinners_pays hNodup hSeated hEach with
          ⟨gain, hPays, hSplits⟩
        have hCount : (front :: rest).length < 2 ^ 32 := by
          have := hSub.length_le
          rw [hFront] at this
          omega
        have hParts := shares_add_remainder pot.amount hCount
        cases hEnd
        rcases payRemainder_pays each.session
            (pot.amount %
              UInt32.ofNat (front :: rest).length)
            hNodup
            (hSeated front (List.mem_cons_self ..))
            (List.mem_cons_self ..) with
          ⟨extra, hExtra, hLast⟩
        refine ⟨fun p => gain p + extra p, hSeats,
          hPays.trans hExtra, ?_⟩
        rw [← hParts]
        exact hSplits.add hLast

------------------------------------------------------------
-- Paying All Pots
------------------------------------------------------------

/-
  Paying pots that each have somebody to win them pays their
  sum, and nobody more than the pots he can win.
-/
theorem payPots_pays
    {award paid : Award}
    {pots : List SidePot}
    (hNodup : award.session.players.Nodup)
    (hPots : ∀ pot ∈ pots,
      pot.eligiblePlayerIndices.length < 2 ^ 32 ∧
        pot.eligiblePlayerIndices ≠ [])
    (hOk : pots.foldlM payPot award = .ok paid) :
    ∃ gain,
      award.session.Pays paid.session gain ∧
      Splits award.session.players award.session.players gain
        (pots.map fun pot => pot.amount.toNat).sum ∧
      ∀ i p, award.session.players[i]? = some p →
        gain p ≤ SidePots.winnable pots i := by
  induction pots generalizing award with
  | nil =>
      cases hOk
      exact ⟨fun _ => 0, Pays.refl _, Splits.zero _ _,
        fun i p _ => Nat.zero_le _⟩
  | cons pot pots ih =>
      rw [List.foldlM_cons, Except.bind_eq_ok] at hOk
      rcases hOk with ⟨next, hHead, hTail⟩
      rcases hPots pot (List.mem_cons_self ..) with
        ⟨hFew, hSome⟩
      rcases payPot_pays hNodup hFew hSome hHead with
        ⟨payees, gain, hPayees, hPays, hSplits⟩
      have hSeats := hPays.players_eq
      rcases ih (by rw [hSeats]; exact hNodup)
          (fun p hp => hPots p (List.mem_cons_of_mem _ hp))
          hTail with
        ⟨more, hPays', hSplits', hMore⟩
      rw [hSeats] at hSplits' hMore
      have hHere : Splits award.session.players
          award.session.players gain pot.amount.toNat := by
        refine ⟨hSplits.total, fun p hp => ?_⟩
        rcases hPayees p (hSplits.support p hp) with
          ⟨i, _, hi⟩
        exact List.mem_of_getElem? hi
      refine ⟨_, hPays.trans hPays', ?_, ?_⟩
      · simpa using hHere.add hSplits'
      · intro i p hi
        rw [SidePots.winnable_cons]
        apply Nat.add_le_add _ (hMore i p hi)
        by_cases hNone : gain p = 0
        · rw [hNone]
          exact Nat.zero_le _
        · rcases hPayees p (hSplits.support p hNone) with
            ⟨j, hj, hAt⟩
          have hLt := (List.getElem?_eq_some_iff.mp hAt).1
          have hSame : j = i :=
            (List.getElem?_inj hLt hNodup).mp
              (hAt.trans hi.symm)
          rw [if_pos (hSame ▸ hj)]
          exact hHere.le (List.mem_of_getElem? hi)

------------------------------------------------------------
-- Awards
------------------------------------------------------------

/- What the seated players put in, seat by seat. -/
def stakes
    (s : GameSession) : List Nat :=
  s.players.map fun p => (s.totalContributed.get p).toNat

/- What the side pots of an award hold together. -/
def sidePotTotal
    (s : GameSession) : Nat :=
  ((computeSidePots s.potPlayerStates).map
    fun pot => pot.amount.toNat).sum

/- What the side pots take the seats to have put in. -/
def remaining
    (s : GameSession) : List UInt32 :=
  s.potPlayerStates.map PotPlayerState.contributed

theorem remaining_eq
    (s : GameSession) :
    s.remaining =
      s.players.map fun p => s.totalContributed.get p := by
  simp [remaining, potPlayerStates]

theorem piles_remaining
    (s : GameSession) :
    SidePots.piles s.remaining = s.stakes := by
  rw [remaining_eq, SidePots.piles, stakes, List.map_map]
  rfl

theorem entry_remaining
    {s : GameSession}
    {i : Nat}
    {p : PlayerId}
    (hAt : s.players[i]? = some p) :
    SidePots.entry s.remaining i =
      s.totalContributed.get p := by
  rw [remaining_eq, SidePots.entry,
    List.getD_eq_getElem?_getD, List.getElem?_map, hAt]
  rfl

/- The seats whose players have not folded. -/
theorem mem_unfolded
    {s : GameSession}
    {i : Nat} :
    i ∈ SidePots.unfolded s.potPlayerStates ↔
      ∃ p, s.players[i]? = some p ∧
        p ∉ s.foldedPlayers := by
  unfold SidePots.unfolded potPlayerStates
  rw [List.mem_filter, List.mem_range, List.length_map,
    List.getD_eq_getElem?_getD, List.getElem?_map]
  cases hAt : s.players[i]? with
  | none =>
      rw [List.getElem?_eq_none_iff] at hAt
      simp
      omega
  | some p =>
      have hLt := (List.getElem?_eq_some_iff.mp hAt).1
      simp [hLt]

theorem length_unfolded_le
    (s : GameSession) :
    (SidePots.unfolded s.potPlayerStates).length ≤
      s.players.length := by
  unfold SidePots.unfolded
  have hLe := List.length_filter_le
    (fun i => !(s.potPlayerStates.getD i {}).folded)
    (List.range s.potPlayerStates.length)
  simpa [potPlayerStates] using hLe

/-
  An award pays out its side pots, to the seated players,
  and to nobody more than the pots he can win.
-/
theorem award_pays
    {s : GameSession}
    {award : Award}
    (hNodup : s.players.Nodup)
    (hFew : s.players.length < 2 ^ 32)
    (hPaid : (computeSidePots s.potPlayerStates).foldlM
      payPot { session := s } = .ok award) :
    ∃ gain,
      s.Pays award.session gain ∧
      Splits s.players s.players gain s.sidePotTotal ∧
      ∀ i p, s.players[i]? = some p →
        gain p ≤ SidePots.winnable
          (computeSidePots s.potPlayerStates) i := by
  refine payPots_pays hNodup (fun pot hPot => ?_) hPaid
  have hSub := SidePots.eligible_loop_sublist hPot
  have hLe := hSub.1.length_le
  have hUnfolded := s.length_unfolded_le
  exact ⟨by omega, hSub.2⟩

end GameSession

end Server

end Poker

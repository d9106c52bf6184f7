import AsciiPoker.Common.HandBest
import AsciiPoker.Common.SidePotForm
import AsciiPoker.Library.Maxima
import AsciiPoker.Server.GameSession.Conservation
import AsciiPoker.Server.GameSession.Progress
import AsciiPoker.Server.GameSession.Script

/-
  Who is paid what at a showdown.

  Each side pot goes to its contenders with the best hands,
  in equal shares, and the first of them in seat order gets
  what is left over.  `prize` is what a player is due; the
  loops of `award_all_pots` pay it and collect the names and
  the labels of everybody who is paid.

  Main declarations:
    * `GameSession.potWinners`, `GameSession.prize`
    * `GameSession.findWinnersAmong_eq`
    * `GameSession.Tally`, `GameSession.Tally.payPots`
    * `GameSession.AtShowdown`,
      `GameSession.AtShowdown.awards`
-/

namespace Poker

namespace Server

open Protocol Maxima

namespace GameSession

variable {s : GameSession}
variable {pot : SidePot}
variable {p q : PlayerId}

------------------------------------------------------------
-- What Players Are Due
------------------------------------------------------------

/- The value of a player's best hand. -/
def strength
    (s : GameSession)
    (player : PlayerId) : HandValue :=
  evaluateBest (s.hands.get player ++ s.communityCards)

/- Those a side pot is for. -/
def contenders
    (s : GameSession)
    (pot : SidePot) : List PlayerId :=
  pot.eligiblePlayerIndices.filterMap fun i => s.players[i]?

/- Those with the best hands, in seat order. -/
def potWinners
    (s : GameSession)
    (pot : SidePot) : List PlayerId :=
  s.players.filter fun p =>
    p ∈ s.contenders pot ∧
      ∀ q ∈ s.contenders pot, s.strength q ≤ s.strength p

/- What a side pot pays a player. -/
def potPrize
    (s : GameSession)
    (p : PlayerId)
    (pot : SidePot) : Nat :=
  let winners := s.potWinners pot
  if p ∈ winners then
    pot.amount.toNat / winners.length +
      if winners.head? = some p then
        pot.amount.toNat % winners.length
      else
        0
  else
    0

/- What all side pots together pay a player. -/
def prize
    (s : GameSession)
    (p : PlayerId) : Nat :=
  ((computeSidePots s.potPlayerStates).map
    (s.potPrize p)).sum

/- The label that a winner's hand is given. -/
def handLabel
    (s : GameSession)
    (p : PlayerId) : String :=
  handCategoryLabel (s.strength p).category

------------------------------------------------------------
-- The Winners of a Pot
------------------------------------------------------------

theorem showdownValue_eq
    (hHands : ∀ p ∈ s.players, (s.hands.find p).isSome)
    (hSeated : p ∈ s.players) :
    s.showdownValue p = .ok (s.strength p) := by
  rcases Option.isSome_iff_exists.mp
    (hHands p hSeated) with ⟨hand, hFind⟩
  have hGet : s.hands.get p = hand := by
    unfold KeyMap.get
    rw [hFind]
    rfl
  unfold showdownValue strength
  rw [hFind, hGet]
  rfl

/- The scan keeps the maxima of what it has seen. -/
theorem winnersLoop_eq
    (hHands : ∀ p ∈ s.players, (s.hands.find p).isSome)
    {seen rest : List PlayerId}
    {best : HandValue}
    (hSeated : ∀ p ∈ rest, p ∈ s.players)
    (hBest : seen = [] ∨
      IsBest (fun p => (s.strength p).key) seen best.key) :
    s.winnersLoop rest best
        (maxima (fun p => (s.strength p).key) seen) =
      .ok (maxima (fun p => (s.strength p).key)
        (seen ++ rest)) := by
  induction rest generalizing seen best with
  | nil =>
      rw [List.append_nil]
      rfl
  | cons player rest ih =>
      have hHere := hSeated player (List.mem_cons_self ..)
      have hRest := fun p hp =>
        hSeated p (List.mem_cons_of_mem player hp)
      unfold winnersLoop
      have hSplit : seen ++ player :: rest =
          seen ++ [player] ++ rest :=
        List.append_cons seen player rest
      rw [showdownValue_eq hHands hHere, Except.ok_bind,
        hSplit]
      by_cases hLess : best < s.strength player
      · have hOne := @maxima_concat_of_lt _ _ _
          (fun p => (s.strength p).key) seen player (by
            intro b hb
            rcases hBest with hNil | hIs
            · rw [hNil] at hb
              cases hb
            · exact (hIs.1 b hb).trans_lt hLess)
        have hNext := ih hRest (.inr hOne.2)
        rw [hOne.1] at hNext
        rw [if_pos (.inr hLess)]
        exact hNext
      · rcases hBest with rfl | hIs
        · have hNext := @ih [player] (s.strength player) hRest
            (.inr (IsBest.singleton _ player))
          rw [maxima_singleton] at hNext
          rw [if_pos (.inl rfl)]
          exact hNext
        · rw [if_neg (by
            rintro (hNil | hLt)
            · exact maxima_ne_nil hIs hNil
            · exact hLess hLt)]
          by_cases hSame : s.strength player = best
          · rw [← hSame] at hIs
            have hMore := maxima_concat_of_eq hIs
            have hNext := ih hRest (.inr hMore.2)
            rw [hMore.1] at hNext
            rw [if_pos hSame, ← hSame]
            exact hNext
          · have hGreater :
                (s.strength player).key < best.key := by
              apply lt_of_le_of_ne (not_lt.mp hLess)
              intro hKey
              exact hSame (HandValue.key_injective hKey)
            have hNone := maxima_concat_of_gt hIs hGreater
            have hNext := ih hRest (.inr hNone.2)
            rw [hNone.1] at hNext
            rw [if_neg hSame]
            exact hNext

/- `find_winners_among` finds the contenders with the best hands. -/
theorem findWinnersAmong_eq
    {contenders : List PlayerId}
    (hHands : ∀ p ∈ s.players, (s.hands.find p).isSome)
    (hSeated : ∀ p ∈ contenders, p ∈ s.players) :
    s.findWinnersAmong contenders =
      .ok (maxima (fun p => (s.strength p).key)
        contenders) := by
  unfold findWinnersAmong
  split
  · rfl
  · rw [maxima_singleton]
  · exact winnersLoop_eq hHands hSeated (.inl rfl)

/- A sublist keeps the order of the list. -/
theorem filter_mem_of_sublist
    {l sub : List PlayerId}
    (hNodup : l.Nodup)
    (hSub : sub.Sublist l) :
    (l.filter fun a => a ∈ sub) = sub := by
  induction hSub with
  | slnil => rfl
  | cons a hSub ih =>
      rcases List.nodup_cons.mp hNodup with ⟨hOut, hRest⟩
      rw [List.filter_cons_of_neg]
      · exact ih hRest
      · intro hIn
        exact hOut (hSub.subset (of_decide_eq_true hIn))
  | cons_cons a hSub ih =>
      rcases List.nodup_cons.mp hNodup with ⟨hOut, hRest⟩
      rw [List.filter_cons_of_pos (by simp)]
      congr 1
      rw [← ih hRest]
      apply List.filter_congr
      intro b hb
      have hOther : b ≠ a := by
        rintro rfl
        exact hOut hb
      rw [ih hRest]
      simp [hOther]

/- The contenders sit in the order of the seats. -/
theorem contenders_sublist
    (hIndices : pot.eligiblePlayerIndices.Sublist
      (List.range s.players.length)) :
    (s.contenders pot).Sublist s.players := by
  have hSub := hIndices.filterMap fun i => s.players[i]?
  have hAll : ((List.range s.players.length).filterMap
      fun i => s.players[i]?) = s.players := by
    have hSome : ∀ i ∈ List.range s.players.length,
        s.players[i]? = some (s.players.getD i 0) := by
      intro i hi
      rw [List.getD_eq_getElem?_getD,
        List.getElem?_eq_getElem (List.mem_range.mp hi)]
      rfl
    rw [List.filterMap_congr hSome, List.filterMap_eq_map',
      map_getD_range]
  rw [hAll] at hSub
  exact hSub

/- Looking the indices up finds the contenders. -/
theorem mapM_playerAt
    {indices : List Nat}
    (hSeats : ∀ i ∈ indices, i < s.players.length) :
    indices.mapM s.playerAt =
      .ok (indices.filterMap fun i => s.players[i]?) := by
  induction indices with
  | nil => rfl
  | cons i indices ih =>
      have hHere := hSeats i (List.mem_cons_self ..)
      have hRest := ih fun j hj =>
        hSeats j (List.mem_cons_of_mem i hj)
      have hAt := List.getElem?_eq_getElem hHere
      have hFound : s.playerAt i = .ok s.players[i] :=
        playerAt_eq_ok.mpr hAt
      rw [List.mapM_cons, hFound, Except.ok_bind, hRest,
        Except.ok_bind,
        List.filterMap_cons_some hAt]
      rfl

/- The maxima among the contenders, in seat order. -/
theorem maxima_contenders
    (hNodup : s.players.Nodup)
    (hIndices : pot.eligiblePlayerIndices.Sublist
      (List.range s.players.length)) :
    maxima (fun p => (s.strength p).key) (s.contenders pot) =
      s.potWinners pot := by
  have hFound := filter_mem_of_sublist hNodup
    (contenders_sublist hIndices)
  have hSplit : s.potWinners pot =
      (s.players.filter fun p => p ∈ s.contenders pot).filter
        fun p => ∀ q ∈ s.contenders pot,
          (s.strength q).key ≤ (s.strength p).key := by
    unfold potWinners
    rw [List.filter_filter]
    apply List.filter_congr
    intro p _
    rw [Bool.and_comm, ← Bool.decide_and]
    rfl
  rw [hSplit, hFound]
  rfl

theorem mem_potWinners :
    p ∈ s.potWinners pot ↔
      p ∈ s.players ∧ p ∈ s.contenders pot ∧
        ∀ q ∈ s.contenders pot,
          s.strength q ≤ s.strength p := by
  simp [potWinners]

theorem potWinners_sublist
    (s : GameSession)
    (pot : SidePot) :
    (s.potWinners pot).Sublist s.players :=
  List.filter_sublist

/- A pot that somebody contends for is won by somebody. -/
theorem potWinners_ne_nil
    (hNodup : s.players.Nodup)
    (hIndices : pot.eligiblePlayerIndices.Sublist
      (List.range s.players.length))
    (hSome : pot.eligiblePlayerIndices ≠ []) :
    s.potWinners pot ≠ [] := by
  have hContended : s.contenders pot ≠ [] := by
    rcases List.exists_mem_of_ne_nil _ hSome with ⟨i, hi⟩
    have hLt := List.mem_range.mp (hIndices.subset hi)
    apply List.ne_nil_of_mem (a := s.players[i])
    exact List.mem_filterMap.mpr
      ⟨i, hi, List.getElem?_eq_getElem hLt⟩
  rcases exists_isBest (f := fun p => (s.strength p).key)
    hContended with ⟨best, hBest⟩
  rw [← maxima_contenders hNodup hIndices]
  exact maxima_ne_nil hBest

------------------------------------------------------------
-- What One Pot Pays
------------------------------------------------------------

/- As many equal parts as there are elements picked. -/
theorem sum_map_ite
    {α : Type}
    (l : List α)
    (picks : α → Bool)
    (part : Nat) :
    (l.map fun a => if picks a then part else 0).sum =
      (l.filter picks).length * part := by
  induction l with
  | nil => rw [List.map_nil, List.filter_nil]; simp
  | cons a l ih =>
      rw [List.map_cons, List.sum_cons, ih]
      by_cases hPick : picks a
      · rw [if_pos hPick, List.filter_cons_of_pos hPick,
          List.length_cons, Nat.add_mul, Nat.one_mul,
          Nat.add_comm]
      · rw [if_neg hPick, List.filter_cons_of_neg hPick,
          Nat.zero_add]

/- A pot that is won is paid in full. -/
theorem sum_potPrize
    (hNodup : s.players.Nodup)
    (hWon : s.potWinners pot ≠ []) :
    (s.players.map fun p => s.potPrize p pot).sum =
      pot.amount.toNat := by
  rcases List.exists_cons_of_ne_nil hWon with
    ⟨front, rest, hWinners⟩
  have hFront : front ∈ s.players := by
    have hMem : front ∈ s.potWinners pot := by
      rw [hWinners]
      exact List.mem_cons_self ..
    exact (mem_potWinners.mp hMem).1
  have hParts : ∀ p ∈ s.players, s.potPrize p pot =
      (if p ∈ s.potWinners pot then
        pot.amount.toNat / (s.potWinners pot).length
      else
        0) +
      if p = front then
        pot.amount.toNat % (s.potWinners pot).length
      else
        0 := by
    intro p _
    unfold potPrize
    dsimp only
    rw [hWinners, List.head?_cons]
    by_cases hFirst : p = front
    · simp [hFirst]
    · have hOther : ¬ some front = some p := by
        intro hSame
        exact hFirst (Option.some.inj hSame).symm
      rw [if_neg hOther, if_neg hFirst]
      rfl
  have hEven : (s.players.map fun p =>
      if p ∈ s.potWinners pot then
        pot.amount.toNat / (s.potWinners pot).length
      else
        0).sum =
      (s.potWinners pot).length *
        (pot.amount.toNat / (s.potWinners pot).length) := by
    have hSum := sum_map_ite s.players
      (fun p => decide (p ∈ s.potWinners pot))
      (pot.amount.toNat / (s.potWinners pot).length)
    rw [filter_mem_of_sublist hNodup (potWinners_sublist ..)]
      at hSum
    simpa using hSum
  have hRest := (Splits.single
    (pot.amount.toNat % (s.potWinners pot).length)
    hNodup hFront hFront).total
  rw [List.sum_map_congr hParts, List.sum_map_add, hEven,
    hRest]
  exact Nat.div_add_mod _ _

/- All prizes together are what is in the pots. -/
theorem sum_prize
    (hNodup : s.players.Nodup)
    (hWon : ∀ pot ∈ computeSidePots s.potPlayerStates,
      s.potWinners pot ≠ []) :
    (s.players.map s.prize).sum = s.sidePotTotal := by
  unfold sidePotTotal prize
  generalize computeSidePots s.potPlayerStates = pots at hWon
  induction pots with
  | nil => simp
  | cons pot pots ih =>
      rcases List.forall_mem_cons.mp hWon with ⟨hHere, hRest⟩
      simp only [List.map_cons, List.sum_cons]
      rw [List.sum_map_add, sum_potPrize hNodup hHere,
        ih hRest]

/- Only the seated are paid. -/
theorem prize_of_notMem
    (hNot : p ∉ s.players) :
    s.prize p = 0 := by
  unfold prize
  rw [List.sum_eq_zero]
  intro part hPart
  rcases List.mem_map.mp hPart with ⟨pot, _, rfl⟩
  unfold potPrize
  dsimp only
  rw [if_neg]
  intro hMem
  exact hNot (mem_potWinners.mp hMem).1

------------------------------------------------------------
-- The Loops of an Award
------------------------------------------------------------

/- The list of everybody paid, with one more of them. -/
def enlist
    (paid : List PlayerId)
    (winner : PlayerId) : List PlayerId :=
  if winner ∈ paid then paid else paid ++ [winner]

theorem mem_foldl_enlist
    (winners paid : List PlayerId) :
    p ∈ winners.foldl enlist paid ↔
      p ∈ paid ∨ p ∈ winners := by
  induction winners generalizing paid with
  | nil => simp
  | cons winner winners ih =>
      rw [List.foldl_cons, ih, List.mem_cons, ← or_assoc]
      apply or_congr_left
      unfold enlist
      split
      · rename_i hKnown
        constructor
        · exact .inl
        · rintro (hPaid | rfl)
          · exact hPaid
          · exact hKnown
      · rw [List.mem_append, List.mem_singleton]

/-
  How far an award has come: `paid` are those it has paid,
  `gain` is what each of them got and `total` what the pots
  held.
-/
structure Tally
    (s : GameSession)
    (award : Award)
    (paid : List PlayerId)
    (gain : PlayerId → Nat)
    (total : Nat) : Prop where
  pays : s.Pays award.session gain
  nodup : paid.Nodup
  seated : ∀ p ∈ paid, p ∈ s.players
  names : award.winnerNames = paid.map s.names
  labels : award.winnerHandLabels = paid.map s.handLabel
  total : award.totalAwarded = UInt32.ofNat total

variable {award : Award}
variable {paid winners : List PlayerId}
variable {gain : PlayerId → Nat}
variable {total : Nat}

/- A new winner is labelled with his best hand. -/
theorem Tally.winnerHandLabel_eq
    (hTally : s.Tally award paid gain total)
    (hHands : ∀ p ∈ s.players, (s.hands.find p).isSome)
    (hBoard : 3 ≤ s.communityCards.length)
    (hSeated : p ∈ s.players)
    (share : UInt32) :
    (award.session.credit p share).winnerHandLabel p =
      .ok (s.handLabel p) := by
  rcases hTally.pays.frame with ⟨chips, hFrame⟩
  have hValue :
      (award.session.credit p share).showdownValue p =
        .ok (s.strength p) := by
    rw [hFrame]
    exact showdownValue_eq hHands hSeated
  have hCards :
      (award.session.credit p share).communityCards =
        s.communityCards := by
    rw [hFrame]
    rfl
  unfold winnerHandLabel
  rw [hCards, if_pos hBoard, hValue]
  rfl

/- A winner is paid his share, and named once. -/
theorem Tally.payWinner
    (hTally : s.Tally award paid gain total)
    (hHands : ∀ p ∈ s.players, (s.hands.find p).isSome)
    (hBoard : 3 ≤ s.communityCards.length)
    (hNames : (s.players.map s.names).Nodup)
    (hSeated : p ∈ s.players)
    (share : UInt32) :
    ∃ next, payWinner share award p = .ok next ∧
      s.Tally next (enlist paid p)
        (fun q => gain q + if q = p then share.toNat else 0)
        total := by
  have hPays := hTally.pays.trans
    (credit_pays award.session p share)
  have hSameNames :
      (award.session.credit p share).names = s.names := by
    rcases hTally.pays.frame with ⟨chips, hFrame⟩
    rw [hFrame]
    rfl
  unfold GameSession.payWinner enlist
  dsimp only
  rw [hSameNames, hTally.names]
  by_cases hKnown : p ∈ paid
  · rw [if_pos (List.mem_map_of_mem hKnown), if_pos hKnown]
    exact ⟨_, rfl, hPays, hTally.nodup, hTally.seated, rfl,
      hTally.labels, hTally.total⟩
  · have hNew : s.names p ∉ paid.map s.names := by
      intro hMem
      rcases List.mem_map.mp hMem with ⟨q, hq, hSame⟩
      have hSelf := List.inj_on_of_nodup_map hNames
        (hTally.seated q hq) hSeated hSame
      exact hKnown (hSelf ▸ hq)
    rw [if_neg hNew, if_neg hKnown,
      hTally.winnerHandLabel_eq hHands hBoard hSeated share,
      Except.ok_bind]
    refine ⟨_, rfl, hPays, ?_, ?_, ?_, ?_, hTally.total⟩
    · exact List.nodup_append.mpr
        ⟨hTally.nodup, List.nodup_singleton p, by
          rintro q hq r hr rfl
          rw [List.mem_singleton.mp hr] at hq
          exact hKnown hq⟩
    · intro q hq
      rcases List.mem_append.mp hq with hOld | hLast
      · exact hTally.seated q hOld
      · rw [List.mem_singleton.mp hLast]
        exact hSeated
    · rw [List.map_append]
      rfl
    · rw [hTally.labels, List.map_append]
      rfl

/- All winners of a pot are paid one share each. -/
theorem Tally.payWinners
    (hTally : s.Tally award paid gain total)
    (hHands : ∀ p ∈ s.players, (s.hands.find p).isSome)
    (hBoard : 3 ≤ s.communityCards.length)
    (hNames : (s.players.map s.names).Nodup)
    (hNodup : winners.Nodup)
    (hSeated : ∀ p ∈ winners, p ∈ s.players)
    (share : UInt32) :
    ∃ next,
      winners.foldlM (GameSession.payWinner share) award =
        .ok next ∧
      s.Tally next (winners.foldl enlist paid)
        (fun q =>
          gain q + if q ∈ winners then share.toNat else 0)
        total := by
  induction winners generalizing award paid gain with
  | nil =>
      refine ⟨award, rfl, ?_⟩
      simpa using hTally
  | cons winner winners ih =>
      rcases List.nodup_cons.mp hNodup with ⟨hOnce, hRest⟩
      rcases hTally.payWinner hHands hBoard hNames
          (hSeated winner (List.mem_cons_self ..)) share with
        ⟨next, hNext, hHere⟩
      rcases ih hHere hRest
          (fun p hp => hSeated p
            (List.mem_cons_of_mem winner hp)) with
        ⟨last, hLast, hAll⟩
      refine ⟨last, ?_, ?_⟩
      · rw [List.foldlM_cons, hNext, Except.ok_bind, hLast]
      · have hGain : (fun q =>
            gain q + (if q = winner then share.toNat else 0) +
              if q ∈ winners then share.toNat else 0) =
            fun q => gain q +
              if q ∈ winner :: winners then share.toNat
              else 0 := by
          funext q
          by_cases hFirst : q = winner
          · rw [if_pos hFirst, hFirst, if_neg hOnce,
              if_pos (List.mem_cons_self ..)]
            rfl
          · have hIff : q ∈ winner :: winners ↔
                q ∈ winners := by
              simp [hFirst]
            rw [if_neg hFirst]
            simp only [hIff]
            rfl
        rw [← hGain]
        exact hAll

/-
  What the pots of an award are like: not empty, and for
  somebody at the table.
-/
structure Winnable
    (s : GameSession)
    (pot : SidePot) : Prop where
  indices : pot.eligiblePlayerIndices.Sublist
    (List.range s.players.length)
  some : pot.eligiblePlayerIndices ≠ []
  amount : pot.amount ≠ 0

/- A winner's share and the rest that goes to the first. -/
theorem potPrize_eq
    {front : PlayerId}
    {rest : List PlayerId}
    (hWinners : s.potWinners pot = front :: rest)
    (hFew : (front :: rest).length < 2 ^ 32)
    (q : PlayerId) :
    (if q ∈ front :: rest then
        (pot.amount / UInt32.ofNat (front :: rest).length).toNat
      else
        0) +
        (if q = front then
          (pot.amount %
            UInt32.ofNat (front :: rest).length).toNat
        else
          0) =
      s.potPrize q pot := by
  unfold potPrize
  dsimp only
  rw [hWinners, List.head?_cons, UInt32.toNat_div,
    UInt32.toNat_mod, UInt32.toNat_ofNat_of_lt' hFew]
  by_cases hFirst : q = front
  · simp [hFirst]
  · have hOther : ¬ some front = some q := by
      intro hSame
      exact hFirst (Option.some.inj hSame).symm
    rw [if_neg hFirst, if_neg hOther]
    rfl

/- A table that has paid before finds the winners of a pot. -/
theorem Tally.winners_eq
    (hTally : s.Tally award paid gain total)
    (hHands : ∀ p ∈ s.players, (s.hands.find p).isSome)
    (hNodup : s.players.Nodup)
    (hWinnable : s.Winnable pot) :
    pot.eligiblePlayerIndices.mapM award.session.playerAt =
        .ok (s.contenders pot) ∧
      award.session.findWinnersAmong (s.contenders pot) =
        .ok (s.potWinners pot) := by
  rcases hTally.pays.frame with ⟨chips, hFrame⟩
  constructor
  · have hIn : ∀ i ∈ pot.eligiblePlayerIndices,
        i < award.session.players.length := by
      intro i hi
      rw [hFrame]
      exact List.mem_range.mp (hWinnable.indices.subset hi)
    rw [mapM_playerAt hIn, hFrame]
    rfl
  · have hIn : ∀ p ∈ s.contenders pot,
        p ∈ award.session.players := by
      intro p hp
      rw [hFrame]
      exact (contenders_sublist hWinnable.indices).subset hp
    have hKnown : ∀ p ∈ award.session.players,
        (award.session.hands.find p).isSome := by
      rw [hFrame]
      exact hHands
    rw [findWinnersAmong_eq hKnown hIn,
      ← maxima_contenders hNodup hWinnable.indices, hFrame]
    rfl

/- The shares and what is left over are the prizes. -/
theorem Pays.potPrize
    {front : PlayerId}
    {rest : List PlayerId}
    (hWinners : s.potWinners pot = front :: rest)
    (hCount : (front :: rest).length < 2 ^ 32)
    (hPays : s.Pays t fun q => gain q +
      if q ∈ front :: rest then
        (pot.amount /
          UInt32.ofNat (front :: rest).length).toNat
      else
        0) :
    s.Pays
      (if 0 < pot.amount %
          UInt32.ofNat (front :: rest).length then
        t.credit front
          (pot.amount % UInt32.ofNat (front :: rest).length)
      else
        t)
      fun q => gain q + s.potPrize q pot := by
  have hGain : (fun q => gain q + s.potPrize q pot) =
      fun q => gain q +
        (if q ∈ front :: rest then
          (pot.amount /
            UInt32.ofNat (front :: rest).length).toNat
        else
          0) +
        (if q = front then
          (pot.amount %
            UInt32.ofNat (front :: rest).length).toNat
        else
          0) := by
    funext q
    rw [← potPrize_eq hWinners hCount q, Nat.add_assoc]
  rw [hGain]
  split
  · exact hPays.trans (credit_pays ..)
  · rename_i hNone
    have hZero : (pot.amount %
        UInt32.ofNat (front :: rest).length).toNat = 0 := by
      rw [UInt32.pos_iff_toNat_pos] at hNone
      exact Nat.eq_zero_of_not_pos hNone
    rw [hZero]
    simpa using hPays

/- A pot pays its prizes. -/
theorem Tally.payPot
    (hTally : s.Tally award paid gain total)
    (hHands : ∀ p ∈ s.players, (s.hands.find p).isSome)
    (hBoard : 3 ≤ s.communityCards.length)
    (hNames : (s.players.map s.names).Nodup)
    (hFew : s.players.length < 2 ^ 32)
    (hWinnable : s.Winnable pot) :
    ∃ next, payPot award pot = .ok next ∧
      s.Tally next ((s.potWinners pot).foldl enlist paid)
        (fun q => gain q + s.potPrize q pot)
        (total + pot.amount.toNat) := by
  have hNodup : s.players.Nodup := hNames.of_map
  rcases List.exists_cons_of_ne_nil
      (potWinners_ne_nil hNodup hWinnable.indices
        hWinnable.some) with ⟨front, rest, hWinners⟩
  have hSub := potWinners_sublist s pot
  have hCount : (front :: rest).length < 2 ^ 32 := by
    rw [← hWinners]
    exact Nat.lt_of_le_of_lt hSub.length_le hFew
  rcases hTally.winners_eq hHands hNodup hWinnable with
    ⟨hSeats, hFound⟩
  rw [hWinners] at hFound
  rcases hTally.payWinners hHands hBoard hNames
      (hWinners ▸ hSub.nodup hNodup)
      (fun p hp => hSub.subset (hWinners ▸ hp))
      (pot.amount / UInt32.ofNat (front :: rest).length) with
    ⟨next, hNext, hShares⟩
  refine ⟨{ next with
      session := _
      totalAwarded := next.totalAwarded + pot.amount },
    ?_, hShares.pays.potPrize hWinners hCount, ?_, ?_, ?_, ?_,
      ?_⟩
  · unfold GameSession.payPot
    rw [hSeats, Except.ok_bind, hFound, Except.ok_bind]
    dsimp only
    rw [if_neg hWinnable.amount, hNext]
    rfl
  · rw [hWinners]
    exact hShares.nodup
  · rw [hWinners]
    exact hShares.seated
  · rw [hWinners]
    exact hShares.names
  · rw [hWinners]
    exact hShares.labels
  · rw [UInt32.ofNat_add, UInt32.ofNat_toNat, ← hShares.total]

/- All pots pay their prizes. -/
theorem Tally.payPots
    {pots : List SidePot}
    (hTally : s.Tally award paid gain total)
    (hHands : ∀ p ∈ s.players, (s.hands.find p).isSome)
    (hBoard : 3 ≤ s.communityCards.length)
    (hNames : (s.players.map s.names).Nodup)
    (hFew : s.players.length < 2 ^ 32)
    (hWinnable : ∀ pot ∈ pots, s.Winnable pot) :
    ∃ last all,
      pots.foldlM GameSession.payPot award = .ok last ∧
      s.Tally last all
        (fun q => gain q + (pots.map (s.potPrize q)).sum)
        (total + (pots.map fun pot => pot.amount.toNat).sum) ∧
      ∀ p, p ∈ all ↔
        p ∈ paid ∨ ∃ pot ∈ pots, p ∈ s.potWinners pot := by
  induction pots generalizing award paid gain total with
  | nil =>
      refine ⟨award, paid, rfl, ?_, by simp⟩
      simpa using hTally
  | cons pot pots ih =>
      rcases List.forall_mem_cons.mp hWinnable with
        ⟨hHere, hRest⟩
      rcases hTally.payPot hHands hBoard hNames hFew hHere with
        ⟨next, hNext, hPaid⟩
      rcases ih hPaid hRest with ⟨last, all, hLast, hAll, hMem⟩
      refine ⟨last, all, ?_, ?_, ?_⟩
      · rw [List.foldlM_cons, hNext, Except.ok_bind, hLast]
      · simpa only [List.map_cons, List.sum_cons,
          Nat.add_assoc] using hAll
      · intro p
        rw [hMem, mem_foldl_enlist, List.exists_mem_cons_iff,
          or_assoc]

------------------------------------------------------------
-- At Showdown
------------------------------------------------------------

/-
  A table that is ready for the award: the maps know all
  players, whose names are distinct, the board is complete,
  the pot holds what they put in, and all chips stay below
  the top of the word.
-/
structure AtShowdown
    (s : GameSession) : Prop where
  stocked : s.Stocked
  current : s.currentPlayerIndex < s.players.length
  names : (s.players.map s.names).Nodup
  few : s.players.length < 2 ^ 32
  board : s.communityCards.length = 5
  staked : s.stakes.sum ≤ s.pot.toNat
  bounded : s.worth < 2 ^ 32 - 1

theorem contributions_potPlayerStates
    (s : GameSession) :
    contributions s.potPlayerStates = s.stakes := by
  unfold contributions potPlayerStates stakes
  rw [List.map_map]
  rfl

/- The pots of a showdown can all be won. -/
theorem AtShowdown.winnable
    (hReady : s.AtShowdown) :
    ∀ pot ∈ computeSidePots s.potPlayerStates,
      s.Winnable pot := by
  intro pot hPot
  have hSub := SidePots.eligible_loop_sublist hPot
  have hTotal :
      (contributions s.potPlayerStates).sum < 2 ^ 32 - 1 := by
    have hStaked := hReady.staked
    have hBounded := hReady.bounded
    unfold worth at hBounded
    rw [contributions_potPlayerStates]
    omega
  rcases List.getElem?_of_mem hPot with ⟨k, hAt⟩
  have hPos := computeSidePots_pos hTotal hAt
  refine ⟨?_, hSub.2, ?_⟩
  · have hSeats : (SidePots.unfolded
        s.potPlayerStates).Sublist
          (List.range s.players.length) := by
      unfold SidePots.unfolded
      have hLength : s.potPlayerStates.length =
          s.players.length := List.length_map _
      rw [hLength]
      exact List.filter_sublist
    exact hSub.1.trans hSeats
  · intro hZero
    rw [hZero] at hPos
    exact absurd hPos (Nat.lt_irrefl 0)

/- What the side pots hold fits in a word. -/
theorem AtShowdown.sidePotTotal_lt
    (hReady : s.AtShowdown) :
    s.sidePotTotal < 2 ^ 32 := by
  have hTotal := s.sidePotTotal_le
  have hStaked := hReady.staked
  have hBounded := hReady.bounded
  unfold worth at hBounded
  omega

/- Every side pot has a winner. -/
theorem AtShowdown.exists_winner
    (hReady : s.AtShowdown)
    (hPot : pot ∈ computeSidePots s.potPlayerStates) :
    ∃ p, p ∈ s.potWinners pot := by
  have hWinnable := hReady.winnable pot hPot
  exact List.exists_mem_of_ne_nil _
    (potWinners_ne_nil hReady.names.of_map hWinnable.indices
      hWinnable.some)

/- Without a pot there are no side pots. -/
theorem AtShowdown.computeSidePots_of_empty
    (hReady : s.AtShowdown)
    (hEmpty : s.pot = 0) :
    computeSidePots s.potPlayerStates = [] := by
  have hStaked := hReady.staked
  rw [hEmpty] at hStaked
  have hNone : s.sidePotTotal = 0 :=
    Nat.eq_zero_of_le_zero (s.sidePotTotal_le.trans hStaked)
  rw [List.eq_nil_iff_forall_not_mem]
  intro pot hPot
  have hLe : pot.amount.toNat ≤ s.sidePotTotal :=
    List.le_sum_map (fun pot => pot.amount.toNat) hPot
  apply (hReady.winnable pot hPot).amount
  rw [hNone] at hLe
  exact UInt32.toNat_inj.mp (Nat.eq_zero_of_le_zero hLe)

/- The prizes make up the side pots. -/
theorem AtShowdown.sum_prize
    (hReady : s.AtShowdown) :
    (s.players.map s.prize).sum = s.sidePotTotal := by
  have hNodup : s.players.Nodup := hReady.names.of_map
  apply GameSession.sum_prize hNodup
  intro pot hPot
  have hWinnable := hReady.winnable pot hPot
  exact potWinners_ne_nil hNodup hWinnable.indices
    hWinnable.some

/- No stack overflows when the prizes are paid. -/
theorem AtShowdown.chips_add_prize
    (hReady : s.AtShowdown)
    (p : PlayerId) :
    (s.chips.get p + UInt32.ofNat (s.prize p)).toNat =
      (s.chips.get p).toNat + s.prize p := by
  by_cases hSeated : p ∈ s.players
  · have hChips := chips_le_seatedStacks
      hReady.stocked.chips hSeated
    have hPrize : s.prize p ≤ s.sidePotTotal := by
      rw [← hReady.sum_prize]
      exact List.le_sum_map s.prize hSeated
    have hTotal := s.sidePotTotal_le
    have hStaked := hReady.staked
    have hBounded := hReady.bounded
    unfold worth at hBounded
    have hFits : (UInt32.ofNat (s.prize p)).toNat =
        s.prize p :=
      UInt32.toNat_ofNat_of_lt' (by
        change s.prize p < 2 ^ 32
        omega)
    rw [UInt32.toNat_add_of_lt (by rw [hFits]; omega), hFits]
  · rw [prize_of_notMem hSeated]
    simp

/- What is said before the result of a hand. -/
def NoResult
    (entries : List Effect) : Prop :=
  ∀ entry ∈ entries, ∀ p result,
    entry ≠ .send p (.handResult result)

theorem NoResult.append
    {entries more : List Effect}
    (hFirst : NoResult entries)
    (hSecond : NoResult more) :
    NoResult (entries ++ more) := by
  intro entry hMem
  rcases List.mem_append.mp hMem with hEarlier | hLater
  · exact hFirst entry hEarlier
  · exact hSecond entry hLater

theorem noResult_of_saves
    {entries : List Effect}
    (hSaves : Saves entries) :
    NoResult entries := by
  intro entry hMem p result hSame
  rcases hSaves entry hMem with ⟨name, chips, rfl⟩
  cases hSame

theorem noResult_of_updates
    (players : List PlayerId)
    (update : PlayerId → GameStateUpdate) :
    NoResult (sendsTo players fun p =>
      .gameStateUpdate (update p)) := by
  intro entry hMem p result hSame
  rcases List.mem_map.mp hMem with ⟨q, _, rfl⟩
  cases hSame

/- Those who are paid are announced, with what they share. -/
theorem Tally.announceAward
    (hTally : s.Tally award paid gain total)
    (hReady : s.AtShowdown)
    (hLog : award.session.log = s.log)
    (hSome : paid ≠ []) :
    ∃ t entries,
      announceAward award = .ok t ∧
      t.chips = award.session.chips ∧
      NoResult entries ∧
      t.log = s.log ++ (entries ++
        sendsTo s.players fun _ =>
          .handResult
            ⟨paid.map s.names, award.totalAwarded,
              paid.map s.handLabel⟩) := by
  have hNamed : award.winnerNames ≠ [] := by
    rw [hTally.names]
    intro hNil
    exact hSome (List.map_eq_nil_iff.mp hNil)
  rcases award.session.persistAllChips_quiet with
    ⟨bankrolls, log, hFrame, _⟩
  have hTold : (GameSession.announceAward award).FailsOnly
      fun _ => False := by
    unfold GameSession.announceAward
    rw [if_pos hNamed]
    refine Except.FailsOnly.bind ?_
      fun _ _ => Except.failsOnly_ok _
    apply Stocked.broadcastState_failsOnly
    · have hChips := hTally.pays.isSome
      rcases hTally.pays.frame with ⟨chips, hPaid⟩
      rw [hPaid] at hChips
      rw [hFrame, hPaid]
      exact ⟨fun p hp => hChips p (hReady.stocked.chips p hp),
        hReady.stocked.roundBets, hReady.stocked.hands⟩
    · rcases hTally.pays.frame with ⟨chips, hPaid⟩
      rw [hFrame, hPaid]
      exact hReady.current
  rcases hTold.exists_ok with ⟨t, hOk⟩
  rcases Config.announced_of_ok hOk with
    ⟨hNil, _⟩ | ⟨_, hPlayers, hChips, saved, update, hSaves,
      hSaid⟩
  · exact absurd hNil hNamed
  refine ⟨t, saved ++ sendsTo s.players
    (fun p => .gameStateUpdate (update p)), hOk, hChips,
    (noResult_of_saves hSaves).append
      (noResult_of_updates s.players update), ?_⟩
  rw [hSaid, hLog, hPlayers, hTally.pays.players_eq,
    hTally.names, hTally.labels, List.append_assoc saved]

/- Without a win in any pot there is no prize. -/
theorem prize_of_no_win
    (hNone : ∀ pot ∈ computeSidePots s.potPlayerStates,
      p ∉ s.potWinners pot) :
    s.prize p = 0 := by
  unfold prize
  rw [List.sum_eq_zero]
  intro part hPart
  rcases List.mem_map.mp hPart with ⟨pot, hPot, rfl⟩
  unfold potPrize
  dsimp only
  rw [if_neg (hNone pot hPot)]

/-
  The award pays everybody his prize and nobody else; the
  prizes make up the pots.  If there are pots, everybody is
  sent one result, with what was paid, the names of the
  winners, each of them once, and the labels of their hands.
-/
theorem AtShowdown.awards
    (hReady : s.AtShowdown) :
    ∃ t, s.awardAllPots = .ok t ∧
      (∀ p, (t.chips.get p).toNat =
        (s.chips.get p).toNat + s.prize p) ∧
      (∀ p,
        (∀ pot ∈ computeSidePots s.potPlayerStates,
          p ∉ s.potWinners pot) →
        t.chips.get p = s.chips.get p) ∧
      (s.players.map s.prize).sum = s.sidePotTotal ∧
      (computeSidePots s.potPlayerStates = [] →
        t.log = s.log) ∧
      (computeSidePots s.potPlayerStates ≠ [] →
        ∃ entries, ∃ winners : List PlayerId,
          ∃ amount : UInt32,
          NoResult entries ∧
          t.log = s.log ++ (entries ++
            sendsTo s.players fun _ =>
              .handResult
                ⟨winners.map s.names, amount,
                  winners.map s.handLabel⟩) ∧
          amount.toNat = s.sidePotTotal ∧
          (winners.map s.names).Nodup ∧
          ∀ p, p ∈ winners ↔
            ∃ pot ∈ computeSidePots s.potPlayerStates,
              p ∈ s.potWinners pot) := by
  have hSum := hReady.sum_prize
  by_cases hEmpty : s.pot = 0
  · have hNone := hReady.computeSidePots_of_empty hEmpty
    refine ⟨s, ?_, ?_, fun p _ => rfl, hSum, fun _ => rfl,
      fun hSome => absurd hNone hSome⟩
    · unfold awardAllPots
      rw [if_pos hEmpty]
    · intro p
      unfold prize
      rw [hNone]
      rfl
  have hStart : s.Tally { session := s } [] (fun _ => 0) 0 :=
    ⟨Pays.refl s, List.nodup_nil, by simp, rfl, rfl, rfl⟩
  have hBoard : 3 ≤ s.communityCards.length := by
    rw [hReady.board]
    omega
  rcases hStart.payPots hReady.stocked.hands hBoard
      hReady.names hReady.few hReady.winnable with
    ⟨award, paid, hPaid, hTally, hMem⟩
  simp only [Nat.zero_add, List.not_mem_nil, false_or]
    at hTally hMem
  have hChips : ∀ p, award.session.chips.get p =
      s.chips.get p + UInt32.ofNat (s.prize p) :=
    hTally.pays.chips_get
  have hGrowth : ∀ p, (award.session.chips.get p).toNat =
      (s.chips.get p).toNat + s.prize p := by
    intro p
    rw [hChips p, hReady.chips_add_prize p]
  have hOthers : ∀ p,
      (∀ pot ∈ computeSidePots s.potPlayerStates,
        p ∉ s.potWinners pot) →
      award.session.chips.get p = s.chips.get p := by
    intro p hNone
    rw [hChips p, prize_of_no_win hNone]
    simp
  have hLog : award.session.log = s.log := by
    rcases hTally.pays.frame with ⟨chips, hFrame⟩
    rw [hFrame]
  by_cases hSome : paid = []
  · -- Nobody is paid, so there are no pots.
    have hAnnounced :
        announceAward award = .ok award.session := by
      unfold announceAward
      rw [if_neg]
      intro hNamed
      rw [hTally.names, hSome] at hNamed
      exact hNamed rfl
    refine ⟨{ award.session with
        pot := 0
        totalContributed := .empty },
      ?_, hGrowth, hOthers, hSum, fun _ => hLog, ?_⟩
    · unfold awardAllPots
      rw [if_neg hEmpty, hPaid, Except.ok_bind, hAnnounced]
      rfl
    · intro hPots
      rcases List.exists_mem_of_ne_nil _ hPots with
        ⟨pot, hPot⟩
      rcases hReady.exists_winner hPot with ⟨p, hp⟩
      have hIn := (hMem p).mpr ⟨pot, hPot, hp⟩
      rw [hSome] at hIn
      cases hIn
  · rcases hTally.announceAward hReady hLog hSome with
      ⟨t, entries, hTold, hSame, hQuiet, hSaid⟩
    refine ⟨{ t with
        pot := 0
        totalContributed := .empty },
      ?_, ?_, ?_, hSum, ?_, ?_⟩
    · unfold awardAllPots
      rw [if_neg hEmpty, hPaid, Except.ok_bind, hTold]
      rfl
    · intro p
      dsimp only
      rw [hSame]
      exact hGrowth p
    · intro p hNone
      dsimp only
      rw [hSame]
      exact hOthers p hNone
    · intro hNone
      rcases List.exists_mem_of_ne_nil _ hSome with ⟨p, hp⟩
      rcases (hMem p).mp hp with ⟨pot, hPot, _⟩
      rw [hNone] at hPot
      cases hPot
    · intro _
      refine ⟨entries, paid, award.totalAwarded, hQuiet, hSaid,
        ?_, ?_, hMem⟩
      · rw [hTally.total]
        exact UInt32.toNat_ofNat_of_lt' hReady.sidePotTotal_lt
      · apply List.Nodup.map_on _ hTally.nodup
        intro p hp q hq hSameName
        exact List.inj_on_of_nodup_map hReady.names
          (hTally.seated p hp) (hTally.seated q hq) hSameName

end GameSession

------------------------------------------------------------
-- Runs
------------------------------------------------------------

/- A run comes to its awards ready for them. -/
theorem Table.Run.atShowdown
    {table : Table}
    {trace : List (Config × Event)}
    {c : Config}
    {next : AfterAward}
    (run : table.Run trace c)
    (hTotal : table.buyIns < 2 ^ 32 - 1)
    (hAward : c.pending = .awardAllPots next)
    (hNames :
      (c.session.players.map c.session.names).Nodup)
    (hBoard : c.session.communityCards.length = 5) :
    c.session.AtShowdown := by
  have hFits : table.buyIns < 2 ^ 32 := by omega
  have hAccounted := run.accounted hFits
  have hSolvent := hAccounted.solvent
  have hWorth := run.worth hFits
  have hOpen : c.pending ≠ .start := by
    rw [hAward]
    intro hStart
    cases hStart
  have hFew := (hAccounted.inOrder.1.dealtIn hOpen).1
  have hFurnished : c.session.Furnished := by
    apply run.furnished.session hOpen
    left
    rw [hAward]
    intro hDone
    cases hDone
  refine ⟨hFurnished.stocked, hFurnished.current, hNames, ?_,
    hBoard, hSolvent.1, ?_⟩
  · omega
  · omega

/- Two players with 50 chips and one with 20, all-in. -/
def Event.allIn : List Event :=
  proceeds 2 ++ [raiseTo 0 50] ++ proceeds 1 ++
    [act 1 .call] ++ proceeds 8

/- The short stack wins the pot, and two split the other. -/
theorem Table.allIn_awards :
    ∃ trace c t,
      (numbered [50, 50, 20] (by decide)).Run trace c ∧
      c.session.awardAllPots = .ok t ∧
      ∀ p, (t.chips.get p).toNat =
        (c.session.chips.get p).toNat + c.session.prize p := by
  rcases exists_run (numbered [50, 50, 20] (by decide))
      Event.allIn
      (fun _ c => decide
        (c.pending = .awardAllPots .tryStartNewHand ∧
          (c.session.players.map c.session.names).Nodup ∧
          c.session.communityCards.length = 5))
      (by decide +kernel) with
    ⟨trace, c, run, hTest⟩
  rcases of_decide_eq_true hTest with
    ⟨hAward, hNames, hBoard⟩
  rcases (run.atShowdown (by decide) hAward hNames
      hBoard).awards with ⟨t, hOk, hChips, _⟩
  exact ⟨trace, c, t, run, hOk, hChips⟩

/- They are paid 30, 30 and 60 chips. -/
example :
    Transition.passes Config.step
      (Table.numbered [50, 50, 20] (by decide)).opening
      Event.allIn (fun _ c => decide
        (c.session.players.map c.session.prize =
          [30, 30, 60])) = true := by
  decide +kernel

end Server

end Poker

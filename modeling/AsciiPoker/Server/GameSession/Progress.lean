import AsciiPoker.Server.GameSession.Cards
import AsciiPoker.Server.GameSession.Stages

/-
  Which exceptions a session can throw.

  A table is furnished when the maps know everybody who is
  seated and both indices point to a seat.  From a furnished
  table every call goes through, unless the deck runs out.

  Main declarations:
    * `Config.Furnished`, `Config.Furnished.step`
    * `Config.Furnished.proceed_failsOnly`,
      `Config.Furnished.applyAction_failsOnly`,
      `Config.Furnished.removePlayer_failsOnly`
    * `Table.Run.furnished`
-/

namespace Poker

namespace Server

open Protocol

------------------------------------------------------------
-- Furnished Tables
------------------------------------------------------------

variable {Kind : Exn → Prop}

/- What is there is found. -/
theorem require_failsOnly
    {α : Type}
    {exn : Exn}
    {o : Option α}
    (hSome : o.isSome) :
    (require exn o).FailsOnly Kind := by
  rcases Option.isSome_iff_exists.mp hSome with ⟨a, rfl⟩
  exact Except.failsOnly_ok a

/- What is not there is reported as such. -/
theorem require_failsOnly_exn
    {α : Type}
    {exn : Exn}
    {o : Option α}
    (hKind : Kind exn) :
    (require exn o).FailsOnly Kind := by
  intro failure hError
  cases o with
  | none =>
      cases hError
      exact hKind
  | some a => cases hError

namespace GameSession

/- The maps know everybody who is seated. -/
structure Stocked
    (s : GameSession) : Prop where
  chips : ∀ p ∈ s.players, (s.chips.find p).isSome
  roundBets : ∀ p ∈ s.players, (s.roundBets.find p).isSome
  hands : ∀ p ∈ s.players, (s.hands.find p).isSome

/- Everything that is looked up at the table is there. -/
structure Furnished
    (s : GameSession) : Prop where
  stocked : s.Stocked
  enough : s.hasEnoughPlayers
  dealer : s.dealerIndex < s.players.length
  current : s.currentPlayerIndex < s.players.length

/- Everything that a betting round looks up is there. -/
structure Laid
    (s : GameSession) : Prop where
  chips : ∀ p ∈ s.players, (s.chips.find p).isSome
  roundBets : ∀ p ∈ s.players, (s.roundBets.find p).isSome
  dealer : s.dealerIndex < s.players.length
  current : s.currentPlayerIndex < s.players.length

variable {s t : GameSession}

/- Enough players and a seat on turn. -/
theorem Furnished.laid
    (hFurnished : s.Furnished) :
    s.Laid :=
  ⟨hFurnished.stocked.chips, hFurnished.stocked.roundBets,
    hFurnished.dealer, hFurnished.current⟩

/- To tell takes nothing away. -/
theorem Furnished.quiet
    (hFurnished : s.Furnished)
    (hQuiet : s.Quiet t) :
    t.Furnished := by
  rcases hQuiet with ⟨_, _, rfl, _⟩
  rcases hFurnished with
    ⟨⟨hChips, hBets, hHands⟩, hEnough, hD, hC⟩
  exact ⟨⟨hChips, hBets, hHands⟩, hEnough, hD, hC⟩

/- A key that is bound stays bound when another one is. -/
theorem isSome_set
    {V : Type}
    {m : KeyMap PlayerId V}
    {p q : PlayerId}
    {v : V}
    (hSome : (m.find p).isSome) :
    ((m.set q v).find p).isSome := by
  rw [KeyMap.find_set]
  split
  · rfl
  · exact hSome

/- Chips are paid to a key that stays bound. -/
theorem Stocked.credit
    (hStocked : s.Stocked)
    (player : PlayerId)
    (amount : UInt32) :
    (s.credit player amount).Stocked :=
  ⟨fun p hp => isSome_set (hStocked.chips p hp),
    hStocked.roundBets, hStocked.hands⟩

/- A bet is noted under bound keys. -/
theorem Stocked.contribute
    (hStocked : s.Stocked)
    (player : PlayerId)
    (amount : UInt32) :
    (s.contribute player amount).Stocked := by
  rcases s.contribute_eq player amount with ⟨_, hEq⟩
  rw [hEq]
  exact ⟨fun p hp => isSome_set (hStocked.chips p hp),
    fun p hp => isSome_set (hStocked.roundBets p hp),
    hStocked.hands⟩

/- The seats stay as they are. -/
theorem Furnished.contribute
    (hFurnished : s.Furnished)
    (player : PlayerId)
    (amount : UInt32) :
    (s.contribute player amount).Furnished := by
  have hStocked := hFurnished.stocked.contribute player amount
  rcases s.contribute_eq player amount with ⟨_, hEq⟩
  rw [hEq] at hStocked ⊢
  exact ⟨hStocked, hFurnished.enough, hFurnished.dealer,
    hFurnished.current⟩

------------------------------------------------------------
-- Seats
------------------------------------------------------------

/- The postflop loop ends at a seat. -/
theorem postflopLoop_lt
    {rounds first index : Nat}
    (hDealer : s.dealerIndex < s.players.length)
    (hIndex : index < s.players.length) :
    s.postflopLoop first rounds index < s.players.length := by
  induction rounds generalizing index with
  | zero => exact hDealer
  | succ rounds ih =>
      unfold postflopLoop
      split
      · exact hIndex
      · dsimp only
        split
        · exact ih (Nat.mod_lt _ (by omega))
        · exact hDealer

/- Indices go around the table. -/
theorem firstToActPostflop_lt
    (hDealer : s.dealerIndex < s.players.length) :
    s.firstToActPostflop < s.players.length :=
  postflopLoop_lt hDealer (Nat.mod_lt _ (by omega))

/- The search for the next player ends at a seat. -/
theorem nextActiveLoop_lt
    {rounds index : Nat}
    (hIndex : index < s.players.length) :
    s.nextActiveLoop rounds index < s.players.length := by
  induction rounds generalizing index with
  | zero => exact hIndex
  | succ rounds ih =>
      unfold nextActiveLoop
      split
      · exact ih (Nat.mod_lt _ (by omega))
      · exact hIndex

/- The search ends at a seat, whether it finds one or not. -/
theorem findNextActivePlayer_lt
    (hSome : 0 < s.players.length) :
    s.findNextActivePlayer < s.players.length := by
  unfold findNextActivePlayer
  split
  · exact hSome
  · exact nextActiveLoop_lt (Nat.mod_lt _ hSome)

/- The small blind is next to the dealer, or he is it. -/
theorem sbIndex_lt
    (hDealer : s.dealerIndex < s.players.length) :
    s.sbIndex < s.players.length := by
  unfold sbIndex
  split
  · exact hDealer
  · exact Nat.mod_lt _ (by omega)

/- The big blind comes next. -/
theorem bbIndex_lt
    (hDealer : s.dealerIndex < s.players.length) :
    s.bbIndex < s.players.length := by
  unfold bbIndex
  split
  · exact Nat.mod_lt _ (by omega)
  · exact Nat.mod_lt _ (by omega)

/- And then the first to act. -/
theorem firstToActPreflop_lt
    (hDealer : s.dealerIndex < s.players.length) :
    s.firstToActPreflop < s.players.length := by
  unfold firstToActPreflop
  split
  · exact hDealer
  · exact Nat.mod_lt _ (by omega)

/- The turn goes to a seat. -/
theorem Laid.advance
    (hLaid : s.Laid) :
    s.advanceToNextPlayer.Laid :=
  ⟨hLaid.chips, hLaid.roundBets, hLaid.dealer,
    findNextActivePlayer_lt (Nat.zero_lt_of_lt hLaid.current)⟩

/- Nothing else changes. -/
theorem Furnished.advance
    (hFurnished : s.Furnished) :
    s.advanceToNextPlayer.Furnished := by
  rcases hFurnished with
    ⟨⟨hChips, hBets, hHands⟩, hEnough, hD, hC⟩
  exact ⟨⟨hChips, hBets, hHands⟩, hEnough, hD,
    findNextActivePlayer_lt (Nat.zero_lt_of_lt hC)⟩

------------------------------------------------------------
-- Functions That Go Through
------------------------------------------------------------

/- `at` of a seat that is there. -/
theorem playerAt_failsOnly
    {index : Nat}
    (hIndex : index < s.players.length) :
    (s.playerAt index).FailsOnly Kind :=
  require_failsOnly (by simp [hIndex])

/- A player's state; his cards are read if they are shown. -/
theorem playerState_failsOnly
    {reveal : Bool}
    {p : PlayerId}
    {i : Nat}
    (hChips : (s.chips.find p).isSome)
    (hBet : (s.roundBets.find p).isSome)
    (hHand : reveal = true → (s.hands.find p).isSome) :
    (s.playerState reveal p i).FailsOnly Kind := by
  unfold playerState
  refine (require_failsOnly hChips).bind fun chips _ => ?_
  refine (require_failsOnly hBet).bind fun bet _ => ?_
  dsimp only
  split
  next hShown =>
    exact (require_failsOnly (hHand hShown.1)).bind
      fun _ _ => Except.failsOnly_ok _
  next => exact Except.failsOnly_ok _

/- The broadcast needs the cards only after a showdown. -/
theorem broadcastState_failsOnly
    (hChips : ∀ p ∈ s.players, (s.chips.find p).isSome)
    (hBets : ∀ p ∈ s.players, (s.roundBets.find p).isSome)
    (hHands : s.phase = .showdown →
      ∀ p ∈ s.players, (s.hands.find p).isSome)
    (hCurrent : s.currentPlayerIndex < s.players.length) :
    s.broadcastState.FailsOnly Kind := by
  unfold broadcastState
  have hStates : (s.buildPlayerStates
      (decide (s.phase = .showdown))).FailsOnly Kind := by
    apply List.failsOnly_mapM
    intro seat hSeat
    have hMem : seat.1 ∈ s.players :=
      List.fst_mem_of_mem_zipIdx hSeat
    exact playerState_failsOnly (hChips _ hMem)
      (hBets _ hMem)
      (fun hShown => hHands (of_decide_eq_true hShown) _ hMem)
  refine hStates.bind fun states _ => ?_
  refine (playerAt_failsOnly hCurrent).bind fun active _ => ?_
  exact Except.failsOnly_ok _

/- Everybody who is shown has chips, bets and a hand. -/
theorem Stocked.broadcastState_failsOnly
    (hStocked : s.Stocked)
    (hCurrent : s.currentPlayerIndex < s.players.length) :
    s.broadcastState.FailsOnly Kind :=
  GameSession.broadcastState_failsOnly hStocked.chips
    hStocked.roundBets (fun _ => hStocked.hands) hCurrent

/- So the table can be shown to all. -/
theorem Furnished.broadcastState_failsOnly
    (hFurnished : s.Furnished) :
    s.broadcastState.FailsOnly Kind :=
  hFurnished.stocked.broadcastState_failsOnly
    hFurnished.current

/- The bets of all seats are looked up. -/
theorem Laid.isRoundComplete_failsOnly
    (hLaid : s.Laid) :
    s.isRoundComplete.FailsOnly Kind := by
  unfold isRoundComplete
  split
  · exact Except.failsOnly_ok _
  · suffices hLoop : ∀ ps : List PlayerId,
        (∀ p ∈ ps, p ∈ s.players) →
        (s.roundCompleteLoop ps).FailsOnly Kind from
      hLoop s.players fun _ hp => hp
    intro ps
    induction ps with
    | nil => exact fun _ => Except.failsOnly_ok _
    | cons p ps ih =>
        intro hSeated
        have hRest := ih fun q hq =>
          hSeated q (List.mem_cons_of_mem _ hq)
        rcases Option.isSome_iff_exists.mp
            (hLaid.roundBets p
              (hSeated p (List.mem_cons_self ..))) with
          ⟨bet, hBet⟩
        unfold roundCompleteLoop
        simp only [hBet, require]
        split
        · exact hRest
        · split
          · exact Except.failsOnly_ok _
          · split
            · exact Except.failsOnly_ok _
            · exact hRest

/- What follows is chosen without a failure. -/
theorem Laid.closeRoundOrAsk_failsOnly
    (hLaid : s.Laid) :
    s.closeRoundOrAsk.FailsOnly Kind := by
  unfold closeRoundOrAsk
  refine hLaid.isRoundComplete_failsOnly.bind
    fun complete _ => ?_
  split
  · exact Except.failsOnly_ok _
  · exact Except.failsOnly_ok _

------------------------------------------------------------
-- Dealing
------------------------------------------------------------

/- Two cards are there for the next player. -/
theorem dealPlayer_failsOnly
    {p : PlayerId}
    (hDeck : 2 ≤ s.deck.length ∨ Kind .deckEmpty) :
    (s.dealPlayer p).FailsOnly Kind := by
  unfold dealPlayer
  refine Except.FailsOnly.bind ?_
    fun _ _ => Except.failsOnly_ok _
  rcases hDeck with hTwo | hKind
  · exact require_failsOnly (Deck.deal_isSome_iff.mpr hTwo)
  · exact require_failsOnly_exn hKind

/- What the dealing loop has filled in for those served. -/
structure SeatsFilled
    (s : GameSession)
    (served : List PlayerId)
    (t : GameSession) : Prop where
  players : t.players = s.players
  dealer : t.dealerIndex = s.dealerIndex
  deck : t.deck.length + 2 * served.length = s.deck.length
  filled : ∀ p ∈ served, (t.chips.find p).isSome ∧
    (t.roundBets.find p).isSome ∧ (t.hands.find p).isSome

/- Nobody is served yet. -/
theorem SeatsFilled.nil
    (s : GameSession) :
    s.SeatsFilled [] s :=
  ⟨rfl, rfl, rfl, by simp⟩

/- One seat after the other takes two cards. -/
theorem SeatsFilled.snoc
    {u : GameSession}
    {served : List PlayerId}
    {p : PlayerId}
    (hFilled : s.SeatsFilled served t)
    (hOk : t.dealPlayer p = .ok u) :
    s.SeatsFilled (served ++ [p]) u := by
  rcases dealPlayer_of_ok hOk with
    ⟨deck, hand, hDeck, hTwo, rfl⟩
  refine ⟨hFilled.players, hFilled.dealer, ?_, ?_⟩
  · have hBefore := hFilled.deck
    rw [hDeck] at hBefore
    simp only [List.length_append, List.length_reverse, hTwo,
      List.length_singleton] at hBefore ⊢
    omega
  · intro q hq
    rcases List.mem_append.mp hq with hOld | hLast
    · rcases hFilled.filled q hOld with
        ⟨hChips, hBets, hHands⟩
      exact ⟨isSome_set hChips, isSome_set hBets,
        isSome_set hHands⟩
    · rw [List.mem_singleton.mp hLast]
      simp [KeyMap.find_set]

/- After the deal all seats are served. -/
theorem Dealt.seatsFilled
    {dealt : GameSession}
    {shuffle : Shuffle}
    (hDealt : s.Dealt shuffle dealt) :
    (s.clearTable shuffle).SeatsFilled s.players dealt :=
  List.foldlM_prefix
    (fun _ _ _ _ _ _ hFilled hOk => hFilled.snoc hOk)
    hDealt (SeatsFilled.nil _)

/- A freshly dealt table is furnished. -/
theorem started_furnished
    {dealt posted : GameSession}
    {shuffle : Shuffle}
    (hDealt : s.Dealt shuffle dealt)
    (hPosted : dealt.postBlinds = .ok posted)
    (hEnough : s.hasEnoughPlayers)
    (hDealer : s.dealerIndex < s.players.length) :
    posted.openPreFlop.Furnished := by
  have hFilled := hDealt.seatsFilled
  have hStocked : dealt.Stocked := by
    refine ⟨?_, ?_, ?_⟩
    all_goals
      rw [hFilled.players]
      intro p hp
    · exact (hFilled.filled p hp).1
    · exact (hFilled.filled p hp).2.1
    · exact (hFilled.filled p hp).2.2
  rcases blinds_of_ok hPosted with ⟨sb, bb, _, _, hEq⟩
  have hFirst := dealt.contribute_frame sb SMALL_BLIND
  have hSecond :=
    (dealt.contribute sb SMALL_BLIND).contribute_frame bb
      BIG_BLIND
  have hSeats : posted.players = s.players := by
    rw [hEq]
    exact hSecond.1.trans (hFirst.1.trans hFilled.players)
  have hSeat : posted.dealerIndex < posted.players.length := by
    rw [hSeats, hEq]
    have hSame := hSecond.2.2.2.2.2.2.2.1.trans
      (hFirst.2.2.2.2.2.2.2.1.trans hFilled.dealer)
    exact lt_of_eq_of_lt hSame hDealer
  have hPostedStocked : posted.Stocked := by
    rcases (hStocked.contribute sb SMALL_BLIND).contribute bb
        BIG_BLIND with
      ⟨hChips, hBets, hHands⟩
    rw [hEq]
    exact ⟨hChips, hBets, hHands⟩
  rcases hPostedStocked with ⟨hChips, hBets, hHands⟩
  have hTwo : posted.hasEnoughPlayers := by
    unfold hasEnoughPlayers
    rw [hSeats]
    exact hEnough
  exact ⟨⟨hChips, hBets, hHands⟩, hTwo, hSeat,
    firstToActPreflop_lt hSeat⟩

------------------------------------------------------------
-- Changes at a Furnished Table
------------------------------------------------------------

/- To fold takes nothing away. -/
theorem Furnished.foldLeaver
    (hFurnished : s.Furnished)
    (player : PlayerId) :
    (s.foldLeaver player).Furnished := by
  rcases hFurnished with
    ⟨⟨hChips, hBets, hHands⟩, hEnough, hD, hC⟩
  exact ⟨⟨hChips, hBets, hHands⟩, hEnough, hD, hC⟩

/- The bets of a new round are all zero. -/
theorem Laid.clearBets
    (hLaid : s.Laid) :
    s.clearBets.Laid := by
  rcases hLaid with ⟨hChips, hBets, hD, hC⟩
  refine ⟨hChips, ?_, hD, hC⟩
  intro p hp
  rcases Option.isSome_iff_exists.mp (hBets p hp) with
    ⟨bet, hBet⟩
  simp [GameSession.clearBets, KeyMap.find_mapValues, hBet]

/- But everybody has one. -/
theorem Furnished.clearBets
    (hFurnished : s.Furnished) :
    s.clearBets.Furnished := by
  have hBets := hFurnished.laid.clearBets.roundBets
  rcases hFurnished with
    ⟨⟨hChips, _, hHands⟩, hEnough, hD, hC⟩
  exact ⟨⟨hChips, hBets, hHands⟩, hEnough, hD, hC⟩

/- A new street opens at a seat. -/
theorem Laid.street
    (hLaid : s.Laid)
    (dealt rest : List Card)
    (phase : GamePhase) :
    (s.clearBets.openStreet dealt rest phase).Laid := by
  rcases hLaid.clearBets with ⟨hChips, hBets, hD, _⟩
  exact ⟨hChips, hBets, hD, firstToActPostflop_lt hD⟩

/- A street moves cards to the board. -/
theorem Furnished.street
    (hFurnished : s.Furnished)
    (dealt rest : List Card)
    (phase : GamePhase) :
    (s.clearBets.openStreet dealt rest phase).Furnished := by
  rcases hFurnished.clearBets with
    ⟨⟨hChips, hBets, hHands⟩, hEnough, hD, hC⟩
  exact ⟨⟨hChips, hBets, hHands⟩, hEnough, hD,
    firstToActPostflop_lt hD⟩

/- An action changes what the actor has. -/
theorem Furnished.acts
    {p : PlayerId}
    {action : Action}
    {amount : Option UInt32}
    (hFurnished : s.Furnished)
    (hActs : s.Acts p action amount t) :
    (t.recordPlayerAction p action).Furnished := by
  suffices hThere : t.Furnished by
    rcases hThere with
      ⟨⟨hChips, hBets, hHands⟩, hEnough, hD, hC⟩
    exact ⟨⟨hChips, hBets, hHands⟩, hEnough, hD, hC⟩
  cases hActs with
  | fold => exact hFurnished.foldLeaver p
  | check => exact hFurnished
  | callNothing => exact hFurnished
  | call => exact hFurnished.contribute p _
  | raise =>
      rcases hFurnished.contribute p _ with
        ⟨⟨hChips, hBets, hHands⟩, hEnough, hD, hC⟩
      exact ⟨⟨hChips, hBets, hHands⟩, hEnough, hD, hC⟩

/- A repaired index is one of the seats that are left. -/
theorem fixIndex_lt
    {index removedIndex size : Nat}
    (hSome : 0 < size) :
    fixIndex index removedIndex size < size := by
  unfold fixIndex
  split
  · exact hSome
  · split
    · omega
    · omega

/- A table that a player has left. -/
theorem Furnished.vacate
    {leaver : Leaver}
    (hFurnished : s.Furnished)
    (hNodup : s.players.Nodup)
    (hAt : s.players[leaver.removedIndex]? =
      some leaver.player)
    (hEnough : (s.vacate leaver).hasEnoughPlayers) :
    (s.vacate leaver).Furnished := by
  have hStays : ∀ {V : Type} (m : KeyMap PlayerId V),
      (∀ p ∈ s.players, (m.find p).isSome) →
      ∀ p ∈ s.players.eraseIdx leaver.removedIndex,
        ((m.erase leaver.player).find p).isSome := by
    intro V m hSome p hp
    rcases (mem_eraseIdx hNodup hAt).mp hp with ⟨hMem, hNe⟩
    rw [KeyMap.find_erase, if_neg hNe]
    exact hSome p hMem
  have hSeats : 0 < (s.players.eraseIdx
      leaver.removedIndex).length := by
    have hTwo := hEnough
    unfold hasEnoughPlayers at hTwo
    rw [vacate_players] at hTwo
    omega
  rcases s.vacate_eq leaver with ⟨_, _, hEq, _⟩
  rw [hEq] at hEnough ⊢
  exact ⟨⟨hStays _ hFurnished.stocked.chips,
    hStays _ hFurnished.stocked.roundBets,
    hStays _ hFurnished.stocked.hands⟩, hEnough,
    fixIndex_lt hSeats, fixIndex_lt hSeats⟩

/- Winnings go to those who are seated. -/
theorem Furnished.pays
    {gain : PlayerId → Nat}
    (hFurnished : s.Furnished)
    (hPays : s.Pays t gain) :
    t.Furnished := by
  have hChips : ∀ p ∈ s.players, (t.chips.find p).isSome :=
    fun p hp => hPays.isSome p (hFurnished.stocked.chips p hp)
  rcases hPays.frame with ⟨chips, rfl⟩
  exact ⟨⟨hChips, hFurnished.stocked.roundBets,
    hFurnished.stocked.hands⟩, hFurnished.enough,
    hFurnished.dealer, hFurnished.current⟩

------------------------------------------------------------
-- Functions of the Hand
------------------------------------------------------------

/- Both blinds have a seat. -/
theorem postBlinds_failsOnly
    (hDealer : s.dealerIndex < s.players.length) :
    s.postBlinds.FailsOnly Kind := by
  unfold postBlinds
  refine (playerAt_failsOnly (sbIndex_lt hDealer)).bind
    fun _ _ => ?_
  refine (playerAt_failsOnly (bbIndex_lt hDealer)).bind
    fun _ _ => ?_
  exact Except.failsOnly_ok _

/- A hand is dealt unless the deck is too small for it. -/
theorem start_failsOnly
    (shuffle : Shuffle)
    (hEnough : s.hasEnoughPlayers)
    (hDealer : s.dealerIndex < s.players.length)
    (hDeck : s.players.length ≤ 26 ∨ Kind .deckEmpty) :
    (s.start shuffle).FailsOnly Kind := by
  unfold start
  have hCards : (s.clearTable shuffle).deck.length = 52 :=
    shuffle.perm.length_eq
  refine Except.FailsOnly.bind ?_ fun dealt hDealt => ?_
  · refine List.failsOnly_foldlM_prefix
      (s.clearTable shuffle).SeatsFilled
      (fun _ _ _ _ _ _ hFilled hOk => hFilled.snoc hOk) ?_
      (SeatsFilled.nil _)
    intro done p rest u hSplit hFilled
    apply dealPlayer_failsOnly
    rcases hDeck with hFew | hKind
    · left
      have hSeats : s.players = done ++ p :: rest := hSplit
      have hUsed := hFilled.deck
      rw [hSeats, List.length_append, List.length_cons] at hFew
      omega
    · exact Or.inr hKind
  · have hFilled := Dealt.seatsFilled hDealt
    have hSeat : dealt.dealerIndex < dealt.players.length := by
      rw [hFilled.dealer, hFilled.players]
      exact hDealer
    refine (postBlinds_failsOnly hSeat).bind
      fun posted hPosted => ?_
    have hOpened := started_furnished hDealt hPosted hEnough
      hDealer
    refine (hOpened.quiet
      (persistAllChips_quiet _)).broadcastState_failsOnly.bind
        fun _ _ => ?_
    exact Except.failsOnly_ok _

/- The player on turn is there to be asked. -/
theorem Laid.askCurrentPlayer_failsOnly
    (hLaid : s.Laid) :
    s.askCurrentPlayer.FailsOnly Kind := by
  unfold askCurrentPlayer
  refine (playerAt_failsOnly hLaid.current).bind
    fun current _ => ?_
  split
  · exact hLaid.advance.closeRoundOrAsk_failsOnly
  · exact Except.failsOnly_ok _

/- A street is dealt unless the deck is too small for it. -/
theorem Laid.dealStreet_failsOnly
    {count : Nat}
    {phase : GamePhase}
    (hLaid : s.Laid)
    (hOpen : phase ≠ .showdown)
    (hDeck : count ≤ s.deck.length ∨ Kind .deckEmpty) :
    (s.clearBets.dealStreet count phase).FailsOnly Kind := by
  unfold dealStreet
  refine Except.FailsOnly.bind ?_ fun dealt _ => ?_
  · rcases hDeck with hThere | hKind
    · exact require_failsOnly (Deck.deal_isSome_iff.mpr hThere)
    · exact require_failsOnly_exn hKind
  · have hStreet := hLaid.street dealt.1 dealt.2 phase
    refine Except.FailsOnly.bind ?_
      fun _ _ => Except.failsOnly_ok _
    exact GameSession.broadcastState_failsOnly hStreet.chips
      hStreet.roundBets (fun hShown => absurd hShown hOpen)
      hStreet.current

/- The cards that the next street takes off the deck. -/
def nextStreet : GamePhase → Nat
| .preFlop => 3
| .flop => 1
| .turn => 1
| .river => 0
| .showdown => 0

/- Only the deck can be short. -/
theorem Laid.nextPhase_failsOnly
    (hLaid : s.Laid)
    (hDeck : s.countActivePlayers = 1 ∨
      nextStreet s.phase ≤ s.deck.length ∨ Kind .deckEmpty) :
    s.nextPhase.FailsOnly Kind := by
  unfold nextPhase
  split
  · exact Except.failsOnly_ok _
  next hMany =>
    have hCards := hDeck.resolve_left hMany
    cases hPhase : s.phase with
    | preFlop =>
        rw [hPhase] at hCards
        exact hLaid.dealStreet_failsOnly (by simp) hCards
    | flop =>
        rw [hPhase] at hCards
        exact hLaid.dealStreet_failsOnly (by simp) hCards
    | turn =>
        rw [hPhase] at hCards
        exact hLaid.dealStreet_failsOnly (by simp) hCards
    | river => exact Except.failsOnly_ok _
    | showdown => exact Except.failsOnly_ok _

/- The hands of all seats are there to be shown. -/
theorem Furnished.doShowdown_failsOnly
    (hFurnished : s.Furnished) :
    s.doShowdown.FailsOnly Kind := by
  unfold doShowdown
  have hShown : GameSession.Furnished
      { s with phase := .showdown } := by
    rcases hFurnished with
      ⟨⟨hChips, hBets, hHands⟩, hEnough, hD, hC⟩
    exact ⟨⟨hChips, hBets, hHands⟩, hEnough, hD, hC⟩
  refine hShown.broadcastState_failsOnly.bind fun _ _ => ?_
  split
  · exact Except.failsOnly_ok _
  · split
    · exact Except.failsOnly_ok _
    · exact Except.failsOnly_ok _

------------------------------------------------------------
-- Awards
------------------------------------------------------------

/- A contender has a hand. -/
theorem Stocked.showdownValue_failsOnly
    {p : PlayerId}
    (hStocked : s.Stocked)
    (hSeated : p ∈ s.players) :
    (s.showdownValue p).FailsOnly Kind := by
  unfold showdownValue
  exact (require_failsOnly (hStocked.hands p hSeated)).bind
    fun _ _ => Except.failsOnly_ok _

/- By induction over the contenders. -/
theorem Stocked.findWinnersAmong_failsOnly
    {contenders : List PlayerId}
    (hStocked : s.Stocked)
    (hSeated : ∀ p ∈ contenders, p ∈ s.players) :
    (s.findWinnersAmong contenders).FailsOnly Kind := by
  unfold findWinnersAmong
  split
  · exact Except.failsOnly_ok _
  · exact Except.failsOnly_ok _
  · suffices hLoop : ∀ (ps : List PlayerId) (best : HandValue)
        (winners : List PlayerId),
        (∀ p ∈ ps, p ∈ s.players) →
        (s.winnersLoop ps best winners).FailsOnly Kind from
      hLoop _ _ _ hSeated
    intro ps
    induction ps with
    | nil => exact fun _ _ _ => Except.failsOnly_ok _
    | cons p ps ih =>
        intro best winners hAll
        have hRest := fun best winners => ih best winners
          fun q hq => hAll q (List.mem_cons_of_mem _ hq)
        unfold winnersLoop
        refine (hStocked.showdownValue_failsOnly
          (hAll p (List.mem_cons_self ..))).bind
            fun value _ => ?_
        split
        · exact hRest _ _
        · split
          · exact hRest _ _
          · exact hRest _ _

/- Paying the winners of a pot looks up their hands. -/
theorem payWinner_failsOnly
    {share : UInt32}
    {award : Award}
    {winner : PlayerId}
    (hStocked : award.session.Stocked)
    (hSeated : winner ∈ award.session.players) :
    (payWinner share award winner).FailsOnly Kind := by
  unfold payWinner
  dsimp only
  split
  · exact Except.failsOnly_ok _
  · refine Except.FailsOnly.bind ?_
      fun _ _ => Except.failsOnly_ok _
    unfold winnerHandLabel
    split
    · exact ((hStocked.credit winner
        share).showdownValue_failsOnly hSeated).bind
          fun _ _ => Except.failsOnly_ok _
    · exact Except.failsOnly_ok _

/- Who is eligible has a seat. -/
theorem payPot_failsOnly
    {award : Award}
    {pot : SidePot}
    (hStocked : award.session.Stocked)
    (hSeats : ∀ i ∈ pot.eligiblePlayerIndices,
      i < award.session.players.length) :
    (payPot award pot).FailsOnly Kind := by
  unfold payPot
  refine Except.FailsOnly.bind ?_ fun contenders hContenders => ?_
  · exact List.failsOnly_mapM
      fun i hi => playerAt_failsOnly (hSeats i hi)
  have hSeated : ∀ p ∈ contenders,
      p ∈ award.session.players := by
    intro p hp
    rcases (contenders_of_ok hContenders).2 p hp with
      ⟨i, _, hAt⟩
    exact List.mem_of_getElem? hAt
  refine (hStocked.findWinnersAmong_failsOnly hSeated).bind
    fun winners hWinners => ?_
  have hSub := (findWinnersAmong_sublist hWinners).1.subset
  split
  · exact Except.failsOnly_ok _
  · dsimp only
    split
    · exact Except.failsOnly_ok _
    · refine Except.FailsOnly.bind ?_
        fun _ _ => Except.failsOnly_ok _
      refine List.failsOnly_foldlM
        (fun paid => paid.session.Stocked ∧
          paid.session.players = award.session.players)
        ?_ ?_ ⟨hStocked, rfl⟩
      · rintro winner _ before after ⟨hBefore, hSame⟩ hOk
        rw [payWinner_session hOk]
        exact ⟨hBefore.credit winner _, hSame⟩
      · rintro winner hWinner before ⟨hBefore, hSame⟩
        refine payWinner_failsOnly hBefore ?_
        rw [hSame]
        exact hSeated winner (hSub hWinner)

/- The side pots are made from the seats. -/
theorem Furnished.awardAllPots_failsOnly
    (hFurnished : s.Furnished)
    (hNodup : s.players.Nodup)
    (hFew : s.players.length < 2 ^ 32) :
    s.awardAllPots.FailsOnly Kind := by
  have hPots : ∀ pot ∈ computeSidePots s.potPlayerStates,
      pot.eligiblePlayerIndices.length < 2 ^ 32 ∧
        pot.eligiblePlayerIndices ≠ [] ∧
        ∀ i ∈ pot.eligiblePlayerIndices,
          i < s.players.length := by
    intro pot hPot
    have hSub := SidePots.eligible_loop_sublist hPot
    have hLe := hSub.1.length_le
    have hUnfolded := s.length_unfolded_le
    refine ⟨by omega, hSub.2, fun i hi => ?_⟩
    rcases mem_unfolded.mp (hSub.1.subset hi) with ⟨p, hAt, _⟩
    exact (List.getElem?_eq_some_iff.mp hAt).1
  unfold awardAllPots
  split
  · exact Except.failsOnly_ok _
  · refine Except.FailsOnly.bind ?_ fun award hPaid => ?_
    · refine List.failsOnly_foldlM
        (fun paid => paid.session.Furnished ∧
          paid.session.players = s.players)
        ?_ ?_ ⟨hFurnished, rfl⟩
      · rintro pot hPot before after ⟨hBefore, hSame⟩ hOk
        rcases hPots pot hPot with ⟨hLength, hSome, _⟩
        rcases payPot_pays (by rw [hSame]; exact hNodup)
            hLength hSome hOk with
          ⟨_, gain, _, hPays, _⟩
        exact ⟨hBefore.pays hPays,
          hPays.players_eq.trans hSame⟩
      · rintro pot hPot before ⟨hBefore, hSame⟩
        refine payPot_failsOnly hBefore.stocked ?_
        rw [hSame]
        exact (hPots pot hPot).2.2
    · rcases award_pays hNodup hFew hPaid with
        ⟨gain, hPays, _⟩
      refine Except.FailsOnly.bind ?_
        fun _ _ => Except.failsOnly_ok _
      unfold announceAward
      split
      · refine ((hFurnished.pays hPays).quiet
          (persistAllChips_quiet
            _)).broadcastState_failsOnly.bind fun _ _ => ?_
        exact Except.failsOnly_ok _
      · exact Except.failsOnly_ok _

------------------------------------------------------------
-- Calls of the Room
------------------------------------------------------------

/- Only looking up the seat on turn could fail. -/
theorem Furnished.applyAction_failsOnly
    (hFurnished : s.Furnished)
    (connection : ConnId)
    (action : Action)
    (amount : Option UInt32) :
    (s.applyAction connection action amount).FailsOnly
      Kind := by
  unfold applyAction
  split
  · exact Except.failsOnly_ok _
  · refine (playerAt_failsOnly hFurnished.current).bind
      fun onTurn _ => ?_
    split
    · exact Except.failsOnly_ok _
    · split
      · exact Except.failsOnly_ok _
      next current _ _ _ t hPerformed =>
        have hActed := hFurnished.acts (acts_of_ok hPerformed)
        unfold afterAction
        dsimp only
        split
        · exact Except.failsOnly_ok _
        · exact (hActed.quiet (broadcastActionEvent_quiet
            ..)).laid.advance.closeRoundOrAsk_failsOnly

/- Whoever leaves is looked for among the seats. -/
theorem Furnished.removePlayer_failsOnly
    (hFurnished : s.Furnished)
    (connection : ConnId) :
    (s.removePlayer connection).FailsOnly Kind := by
  unfold removePlayer
  split
  · exact Except.failsOnly_ok _
  · split
    · exact Except.failsOnly_ok _
    · refine (playerAt_failsOnly hFurnished.current).bind
        fun _ _ => ?_
      exact Except.failsOnly_ok _

/- The indices are repaired for those who stay. -/
theorem Furnished.finishRemoval_failsOnly
    {leaver : Leaver}
    (hFurnished : s.Furnished)
    (hNodup : s.players.Nodup)
    (hAt : s.players[leaver.removedIndex]? =
      some leaver.player) :
    (s.finishRemoval leaver).FailsOnly Kind := by
  unfold finishRemoval
  dsimp only
  split
  · exact Except.failsOnly_ok _
  · split
    · exact Except.failsOnly_ok _
    next hEnough =>
      have hLeft := hFurnished.vacate hNodup hAt
        (not_not.mp hEnough)
      split
      · exact Except.failsOnly_ok _
      · unfold continueAfterPlayerLeft
        refine hLeft.laid.isRoundComplete_failsOnly.bind
          fun complete _ => ?_
        split
        · split
          · exact Except.failsOnly_ok _
          · exact Except.failsOnly_ok _
        · exact hLeft.broadcastState_failsOnly.bind
            fun _ _ => Except.failsOnly_ok _

end GameSession

------------------------------------------------------------
-- Steps
------------------------------------------------------------

/-
  A hand that is about to start has players and a dealer;
  everywhere else the table is furnished, unless the session
  has come to its end.
-/
structure Config.Furnished
    (c : Config) : Prop where
  toStart : c.pending = .start →
    c.session.hasEnoughPlayers ∧
      c.session.dealerIndex < c.session.players.length
  toGoOn : c.pending ≠ .start →
    c.session.Furnished ∨
      (c.pending = .done ∧ ¬ c.session.hasEnoughPlayers)

/- A furnished table, whatever is left to run but a start. -/
theorem Config.furnished_of_session
    {s : GameSession}
    {pending : Pending}
    (hFurnished : s.Furnished)
    (hOpen : pending ≠ .start) :
    Config.Furnished ⟨s, pending⟩ where
  toStart := fun hStart => absurd hStart hOpen
  toGoOn := fun _ => Or.inl hFurnished

/- A call that is left to run finds the table furnished. -/
theorem Config.Furnished.session
    {s : GameSession}
    {pending : Pending}
    (hFurnished : Config.Furnished ⟨s, pending⟩)
    (hOpen : pending ≠ .start)
    (hCall : pending ≠ .done ∨ s.hasEnoughPlayers) :
    s.Furnished := by
  rcases hFurnished.toGoOn hOpen with hHere | ⟨hDone, hFew⟩
  · exact hHere
  · rcases hCall with hNot | hEnough
    · exact absurd hDone hNot
    · exact absurd hEnough hFew

/- A session starts with the seats it was given. -/
theorem Table.opening_furnished
    (table : Table) :
    table.opening.Furnished := by
  have hTwo := table.roster.two_le_length
  have hSeats : 2 ≤ table.create.players.length := by
    change 2 ≤ (table.roster.seats.map Prod.snd).length
    rw [List.length_map]
    exact hTwo
  refine ⟨fun _ => ⟨hSeats, ?_⟩, fun hNot => absurd rfl hNot⟩
  exact Nat.lt_of_lt_of_le Nat.zero_lt_two hSeats

/- Every step leaves the table furnished. -/
theorem Config.Furnished.step
    {c d : Config}
    {e : Event}
    (hFurnished : c.Furnished)
    (hSeated : c.Seated)
    (hStep : Step c e d) :
    d.Furnished := by
  cases hStep with
  | started hDealt hPosted hQuiet =>
      rcases hFurnished.toStart rfl with ⟨hEnough, hDealer⟩
      have hStarted := GameSession.started_furnished hDealt
        hPosted hEnough hDealer
      exact Config.furnished_of_session
        (hStarted.quiet hQuiet) (by simp)
  | asked hAt hAct =>
      rcases hFurnished.session (by simp) (by simp) with
        ⟨⟨hChips, hBets, hHands⟩, hEnough, hD, hC⟩
      exact Config.furnished_of_session
        ⟨⟨hChips, hBets, hHands⟩, hEnough, hD, hC⟩ (by simp)
  | passedOver hAt hAct hCloses =>
      have hHere := hFurnished.session (by simp) (by simp)
      exact Config.furnished_of_session hHere.advance
        (closes_ne_start hCloses)
  | wonByFold hOne =>
      have hHere := hFurnished.session (by simp) (by simp)
      exact Config.furnished_of_session hHere (by simp)
  | street hMany hPhase hDeal hQuiet =>
      have hHere := hFurnished.session (by simp) (by simp)
      exact Config.furnished_of_session
        ((hHere.street _ _ _).quiet hQuiet) (by simp)
  | riverClosed hMany hPhase =>
      have hHere := hFurnished.session (by simp) (by simp)
      exact Config.furnished_of_session hHere.clearBets
        (by simp)
  | pastShowdown hMany hPhase =>
      have hHere := hFurnished.session (by simp) (by simp)
      exact Config.furnished_of_session hHere.clearBets
        (by simp)
  | @shownDown s t pending shuffle hQuiet hPending =>
      have hShown : GameSession.Furnished
          { s with phase := .showdown } := by
        rcases hFurnished.session (by simp) (by simp) with
          ⟨⟨hChips, hBets, hHands⟩, hEnough, hD, hC⟩
        exact ⟨⟨hChips, hBets, hHands⟩, hEnough, hD, hC⟩
      refine Config.furnished_of_session
        (hShown.quiet hQuiet) ?_
      rcases hPending with ⟨_, rfl⟩ | ⟨_, rfl⟩ | ⟨_, rfl⟩
      · simp
      · simp
      · simp
  | singleWinner =>
      have hHere := hFurnished.session (by simp) (by simp)
      exact Config.furnished_of_session hHere (by simp)
  | awardedNothing hEmpty =>
      have hHere := hFurnished.session (by simp) (by simp)
      exact Config.furnished_of_session hHere (by simp)
  | @awarded s t award next shuffle hFull hPaid hQuiet =>
      have hHere := hFurnished.session (by simp) (by simp)
      rcases hSeated.dealtIn (by simp) with ⟨hFew, _⟩
      dsimp only at hFew
      have hNodup : s.players.Nodup := hSeated.nodup
      rcases GameSession.award_pays hNodup (by omega)
          hPaid with
        ⟨gain, hPays, _⟩
      have hPaidOut : GameSession.Furnished
          { award.session with
            pot := 0
            totalContributed := .empty } := by
        rcases hHere.pays hPays with
          ⟨⟨hChips, hBets, hHands⟩, hEnough, hD, hC⟩
        exact ⟨⟨hChips, hBets, hHands⟩, hEnough, hD, hC⟩
      exact Config.furnished_of_session
        (hPaidOut.quiet hQuiet) (by simp)
  | handOver hEnough hChips =>
      refine ⟨fun _ => ⟨hEnough, ?_⟩, by simp⟩
      exact Nat.mod_lt _ (Nat.lt_of_lt_of_le Nat.zero_lt_two
        hEnough)
  | gameOver hOver =>
      have hHere := hFurnished.session (by simp) (by simp)
      exact Config.furnished_of_session hHere (by simp)
  | leftFew hFew hErased =>
      exact ⟨by simp, fun _ => Or.inr ⟨rfl, hFew⟩⟩
  | leftOneActive hEnough hOne =>
      have hHere := hFurnished.session (by simp) (by simp)
      exact Config.furnished_of_session
        (hHere.vacate hSeated.nodup
          (hSeated.leaver _ rfl).1 hEnough) (by simp)
  | leftClosing hEnough hMany hCloses =>
      have hHere := hFurnished.session (by simp) (by simp)
      exact Config.furnished_of_session
        (hHere.vacate hSeated.nodup
          (hSeated.leaver _ rfl).1 hEnough)
        (closes_ne_start hCloses)
  | leftWaiting hEnough hMany hOther hOpen hQuiet =>
      have hHere := hFurnished.session (by simp) (by simp)
      exact Config.furnished_of_session
        ((hHere.vacate hSeated.nodup
          (hSeated.leaver _ rfl).1 hEnough).quiet hQuiet)
        (by simp)
  | unmapped hEnough hNone => exact hFurnished
  | rejected hEnough hPlayer =>
      have hHere := hFurnished.session (by simp)
        (Or.inr hEnough)
      exact Config.furnished_of_session
        (hHere.quiet (GameSession.sendError_quiet ..))
        (by simp)
  | wonByAction hEnough hPlayer hAt hActs hQuiet hOne =>
      have hHere := hFurnished.session (by simp)
        (Or.inr hEnough)
      exact Config.furnished_of_session
        ((hHere.acts hActs).quiet hQuiet) (by simp)
  | acted hEnough hPlayer hAt hActs hQuiet hMany hCloses =>
      have hHere := hFurnished.session (by simp)
        (Or.inr hEnough)
      exact Config.furnished_of_session
        ((hHere.acts hActs).quiet hQuiet).advance
        (closes_ne_start hCloses)
  | notSeated hEnough hNone => exact hFurnished
  | @leaving s l current pending hEnough hPlayer hAt hCurrent
      hWas hPending =>
      have hHere := hFurnished.session (by simp)
        (Or.inr hEnough)
      refine Config.furnished_of_session
        (hHere.foldLeaver l.player) ?_
      rcases hPending with ⟨_, rfl⟩ | ⟨_, rfl⟩
      · simp
      · simp

/- The deck holds fewer cards than the step would deal. -/
def Config.DeckShort
    (c : Config) : Prop :=
  (c.pending = .start ∧ 26 < c.session.players.length) ∨
    (c.pending = .nextPhase ∧
      c.session.countActivePlayers ≠ 1 ∧
      c.session.deck.length <
        GameSession.nextStreet c.session.phase)

/- A function's result fails as the function does. -/
theorem Config.ofResult_failsOnly
    {r : Except Exn (GameSession × Pending)}
    (hFails : r.FailsOnly Kind) :
    (Config.ofResult r).FailsOnly Kind := by
  rcases r with exn | ⟨session, pending⟩
  · intro other hError
    cases hError
    exact hFails exn rfl
  · exact Except.failsOnly_ok _

/- A call that is left to run fails only for want of cards. -/
theorem Config.Furnished.body_failsOnly
    {s : GameSession}
    {pending : Pending}
    (hFurnished : Config.Furnished ⟨s, pending⟩)
    (hSeated : Config.Seated ⟨s, pending⟩)
    (shuffle : Shuffle)
    (hCall : pending ≠ .done)
    (hDeck : Config.DeckShort ⟨s, pending⟩ →
      Kind .deckEmpty) :
    (s.body shuffle pending).FailsOnly Kind := by
  have hNodup : s.players.Nodup := hSeated.nodup
  by_cases hStart : pending = .start
  · subst hStart
    rcases hFurnished.toStart rfl with ⟨hEnough, hDealer⟩
    refine GameSession.start_failsOnly shuffle hEnough
      hDealer ?_
    by_cases hFew : s.players.length ≤ 26
    · exact Or.inl hFew
    · exact Or.inr (hDeck
        (Or.inl ⟨rfl, Nat.lt_of_not_le hFew⟩))
  have hHere := hFurnished.session hStart (Or.inl hCall)
  cases pending with
  | done => exact absurd rfl hCall
  | start => exact absurd rfl hStart
  | askCurrentPlayer =>
      exact hHere.laid.askCurrentPlayer_failsOnly
  | nextPhase =>
      refine hHere.laid.nextPhase_failsOnly ?_
      by_cases hOne : s.countActivePlayers = 1
      · exact Or.inl hOne
      · right
        by_cases hCards : GameSession.nextStreet s.phase ≤
            s.deck.length
        · exact Or.inl hCards
        · exact Or.inr (hDeck (Or.inr
            ⟨rfl, hOne, Nat.lt_of_not_le hCards⟩))
  | doShowdown => exact hHere.doShowdown_failsOnly
  | handleSingleWinner => exact Except.failsOnly_ok _
  | awardAllPots next =>
      rcases hSeated.dealtIn (by simp) with ⟨hFew, _⟩
      dsimp only at hFew
      have hAward : s.awardAllPots.FailsOnly Kind :=
        hHere.awardAllPots_failsOnly hNodup (by omega)
      cases hResult : s.awardAllPots with
      | error exn =>
          intro other hOther
          simp only [GameSession.body, hResult] at hOther
          cases hOther
          exact hAward exn hResult
      | ok t =>
          simp only [GameSession.body, hResult]
          exact Except.failsOnly_ok _
  | resume next =>
      cases next with
      | tryStartNewHand => exact Except.failsOnly_ok _
      | finishRemoval leaver =>
          exact hHere.finishRemoval_failsOnly hNodup
            (hSeated.leaver leaver rfl).1

/-
  A step fails when the machine is not ready for it or the
  deck runs out, and for no other reason.
-/
theorem Config.Furnished.step_failsOnly
    {c : Config}
    (hFurnished : c.Furnished)
    (hSeated : c.Seated)
    (e : Event)
    (hDeck : ∀ shuffle, e = .proceed shuffle →
      c.DeckShort → Kind .deckEmpty)
    (hReady : Kind .notEnabled) :
    (c.step e).FailsOnly Kind := by
  rcases c with ⟨s, pending⟩
  have hNotEnabled : ∀ {α : Type},
      (.error .notEnabled : Except Exn α).FailsOnly Kind := by
    intro α exn hError
    cases hError
    exact hReady
  cases e with
  | applyAction connection action amount =>
      simp only [Config.step]
      split
      next hIdle =>
        have hHere := hFurnished.session
          (by rw [show pending = .done from hIdle.1]; simp)
          (Or.inr hIdle.2)
        exact Config.ofResult_failsOnly
          (hHere.applyAction_failsOnly connection action amount)
      next => exact hNotEnabled
  | removePlayer connection =>
      simp only [Config.step]
      split
      next hIdle =>
        have hHere := hFurnished.session
          (by rw [show pending = .done from hIdle.1]; simp)
          (Or.inr hIdle.2)
        exact Config.ofResult_failsOnly
          (hHere.removePlayer_failsOnly connection)
      next => exact hNotEnabled
  | proceed shuffle =>
      apply Config.ofResult_failsOnly
      dsimp only
      by_cases hDone : pending = .done
      · subst hDone
        exact hNotEnabled
      · exact hFurnished.body_failsOnly hSeated shuffle hDone
          (hDeck shuffle rfl)

------------------------------------------------------------
-- Runs
------------------------------------------------------------

/- The table is furnished at every point of a run. -/
theorem Table.Run.furnished
    {table : Table}
    {trace : List (Config × Event)}
    {c : Config}
    (run : table.Run trace c) :
    c.Furnished := by
  have hKeep : ∀ (c : Config) (e : Event) (d : Config),
      c.Seated ∧ c.Furnished → c.step e = .ok d →
      d.Seated ∧ d.Furnished := by
    rintro c e d ⟨hSeated, hFurnished⟩ hOk
    have hStep := step_of_ok hOk
    exact ⟨hSeated.step hStep,
      hFurnished.step hSeated hStep⟩
  exact (run.invariant_of_step hKeep
    ⟨table.opening_seated, table.opening_furnished⟩).2

end Server

end Poker

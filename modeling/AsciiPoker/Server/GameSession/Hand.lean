import AsciiPoker.Server.GameSession.Step

/-
  What dealing, the blinds and a departure do to the table.

  Main declarations:
    * `GameSession.stackOf`
    * `GameSession.Dealt.spec`, `GameSession.blinds_of_ok`
    * `GameSession.countActivePlayers_vacate`
-/

namespace Poker

namespace Server

open Protocol

namespace GameSession

------------------------------------------------------------
-- Dealing
------------------------------------------------------------

/-
  The stack of a player: his chips, or the bankroll he will
  sit down with when he was never dealt in.
-/
def stackOf
    (s : GameSession)
    (player : PlayerId) : UInt32 :=
  (s.chips.find player).getD (s.bankrollOf player)

/- A player with an entry in `chips_` has a stack of it. -/
theorem stackOf_of_isSome
    {s : GameSession}
    {p : PlayerId}
    (hSome : (s.chips.find p).isSome) :
    s.stackOf p = s.chips.get p := by
  rcases Option.isSome_iff_exists.mp hSome with ⟨c, hc⟩
  simp [stackOf, KeyMap.get, hc]

/-
  The table `dealt` in the midst of the dealing loop: the
  players of `served` have their cards.
-/
def Serving
    (s : GameSession)
    (served : List PlayerId)
    (dealt : GameSession) : Prop :=
  ∃ chips deck hands roundBets total,
    dealt = { s with
      chips := chips
      deck := deck
      hands := hands
      roundBets := roundBets
      totalContributed := total } ∧
    deck.length + 2 * served.length = s.deck.length ∧
    (∀ p, (chips.find p).getD (s.bankrollOf p) =
      s.stackOf p) ∧
    (∀ p, total.get p = 0) ∧
    (∀ p ∈ served,
      chips.find p = some (s.stackOf p) ∧
        roundBets.get p = 0)

/- The table after a player is dealt in. -/
theorem dealPlayer_of_ok
    {s t : GameSession}
    {p : PlayerId}
    (hOk : s.dealPlayer p = .ok t) :
    ∃ deck hand,
      s.deck = deck ++ hand.reverse ∧ hand.length = 2 ∧
      t = { s with
        chips := s.chips.set p (s.stackOf p)
        deck := deck
        hands := s.hands.set p hand
        roundBets := s.roundBets.set p 0
        totalContributed := s.totalContributed.set p 0 } := by
  unfold dealPlayer at hOk
  rcases Except.bind_eq_ok.mp hOk with
    ⟨⟨hand, deck⟩, hDeal, hEnd⟩
  cases hEnd
  rcases Deck.deal_eq_some (require_eq_ok.mp hDeal) with
    ⟨hDeck, hTwo⟩
  refine ⟨deck, hand, hDeck, hTwo, ?_⟩
  cases hFind : s.chips.find p with
  | none => simp [stackOf, hFind]
  | some c =>
      -- Binding a key to the value it has changes nothing.
      have hSame : s.chips.set p c = s.chips := by
        ext j
        by_cases hEq : j = p
        · simp [KeyMap.find_set, hEq, hFind]
        · simp [KeyMap.find_set, hEq]
      simp [stackOf, hFind, hSame]

/- Dealing one more player in. -/
theorem Serving.snoc
    {s t u : GameSession}
    {served : List PlayerId}
    {p : PlayerId}
    (hServing : s.Serving served t)
    (hOk : t.dealPlayer p = .ok u) :
    s.Serving (served ++ [p]) u := by
  rcases hServing with
    ⟨chips, deck, hands, roundBets, total, rfl, hDeck,
      hStack, hTotal, hServed⟩
  rcases dealPlayer_of_ok hOk with
    ⟨deck', hand, hDealt, hTwo, rfl⟩
  refine ⟨chips.set p (s.stackOf p), deck', hands.set p hand,
    roundBets.set p 0, total.set p 0, ?_, ?_, ?_, ?_, ?_⟩
  · rw [← hStack p]
    rfl
  · have hLength := congrArg List.length hDealt
    simp only [List.length_append, List.length_reverse, hTwo,
      List.length_singleton] at hLength ⊢
    omega
  · intro q
    rw [KeyMap.find_set]
    by_cases hEq : q = p
    · simp [hEq]
    · simp [hEq, hStack]
  · intro q
    rw [KeyMap.get_set]
    by_cases hEq : q = p
    · simp [hEq]
    · simp [hEq, hTotal]
  · intro q hq
    rw [KeyMap.find_set, KeyMap.get_set]
    by_cases hEq : q = p
    · simp [hEq]
    · have hMem : q ∈ served := by
        simpa [hEq] using hq
      simpa [hEq] using hServed q hMem

/- The table when every seat is dealt in. -/
theorem Dealt.spec
    {s dealt : GameSession}
    {shuffle : Shuffle}
    (hDealt : s.Dealt shuffle dealt) :
    (s.clearTable shuffle).Serving s.players dealt := by
  have hStart : (s.clearTable shuffle).Serving []
      (s.clearTable shuffle) :=
    ⟨_, _, _, _, _, rfl, rfl, fun _ => rfl, fun _ => rfl,
      by simp⟩
  exact List.foldlM_prefix
    (fun _ _ _ _ _ _ hServing hOk => hServing.snoc hOk)
    hDealt hStart

------------------------------------------------------------
-- Blinds
------------------------------------------------------------

/- The blinds, and the bet they set. -/
theorem blinds_of_ok
    {s t : GameSession}
    (hOk : s.postBlinds = .ok t) :
    ∃ sb bb,
      s.players[s.sbIndex]? = some sb ∧
      s.players[s.bbIndex]? = some bb ∧
      t = { (s.contribute sb SMALL_BLIND).contribute
              bb BIG_BLIND with
            currentBet :=
              ((s.contribute sb SMALL_BLIND).contribute
                bb BIG_BLIND).roundBets.get bb } := by
  unfold postBlinds at hOk
  rcases Except.bind_eq_ok.mp hOk with ⟨sb, hSb, hRest⟩
  rcases Except.bind_eq_ok.mp hRest with ⟨bb, hBb, hEnd⟩
  cases hEnd
  exact ⟨sb, bb, playerAt_eq_ok.mp hSb,
    playerAt_eq_ok.mp hBb, rfl⟩

------------------------------------------------------------
-- Departures
------------------------------------------------------------

section Vacate

variable (s : GameSession)
variable (leaver : Leaver)

/- What is left of the table when a seat is cleared. -/
theorem vacate_eq :
    ∃ bankrolls log,
      s.vacate leaver = { s with
        bankrolls := bankrolls
        log := log
        players := s.players.eraseIdx leaver.removedIndex
        connectionMap :=
          s.connectionMap.erase leaver.connection
        hands := s.hands.erase leaver.player
        foldedPlayers := s.foldedPlayers.erase leaver.player
        allInPlayers := s.allInPlayers.erase leaver.player
        playersActed := s.playersActed.erase leaver.player
        dealerIndex :=
          fixIndex s.dealerIndex leaver.removedIndex
            (s.players.eraseIdx leaver.removedIndex).length
        currentPlayerIndex :=
          fixIndex s.currentPlayerIndex leaver.removedIndex
            (s.players.eraseIdx leaver.removedIndex).length
        chips := s.chips.erase leaver.player
        roundBets := s.roundBets.erase leaver.player
        totalContributed :=
          s.totalContributed.erase leaver.player } ∧
      (s.vacate leaver).turnsAsked = s.turnsAsked := by
  rcases persistPlayerChips_quiet s leaver.player with
    ⟨bankrolls, log, hEq, hTurns⟩
  rw [hEq] at hTurns
  refine ⟨bankrolls, log, ?_, ?_⟩
  · unfold vacate eraseLeaver erasePlayerState
    rw [hEq]
    rfl
  · unfold vacate eraseLeaver erasePlayerState
    rw [hEq]
    exact hTurns

/- The seat is taken out. -/
@[simp] theorem vacate_players :
    (s.vacate leaver).players =
      s.players.eraseIdx leaver.removedIndex := by
  rcases s.vacate_eq leaver with ⟨_, _, h, _⟩
  rw [h]

/- He is no longer among those who folded. -/
@[simp] theorem vacate_foldedPlayers :
    (s.vacate leaver).foldedPlayers =
      s.foldedPlayers.erase leaver.player := by
  rcases s.vacate_eq leaver with ⟨_, _, h, _⟩
  rw [h]

/- His chips are erased; they were stored before. -/
@[simp] theorem vacate_chips :
    (s.vacate leaver).chips =
      s.chips.erase leaver.player := by
  rcases s.vacate_eq leaver with ⟨_, _, h, _⟩
  rw [h]

/- So is his bet. -/
@[simp] theorem vacate_roundBets :
    (s.vacate leaver).roundBets =
      s.roundBets.erase leaver.player := by
  rcases s.vacate_eq leaver with ⟨_, _, h, _⟩
  rw [h]

/- And his part of the side pots. -/
@[simp] theorem vacate_totalContributed :
    (s.vacate leaver).totalContributed =
      s.totalContributed.erase leaver.player := by
  rcases s.vacate_eq leaver with ⟨_, _, h, _⟩
  rw [h]

/- But what he gave stays in the pot. -/
@[simp] theorem vacate_pot :
    (s.vacate leaver).pot = s.pot := by
  rcases s.vacate_eq leaver with ⟨_, _, h, _⟩
  rw [h]

/- The bet to match stays. -/
@[simp] theorem vacate_currentBet :
    (s.vacate leaver).currentBet = s.currentBet := by
  rcases s.vacate_eq leaver with ⟨_, _, h, _⟩
  rw [h]

/- So does the least raise. -/
@[simp] theorem vacate_lastRaiseIncrement :
    (s.vacate leaver).lastRaiseIncrement =
      s.lastRaiseIncrement := by
  rcases s.vacate_eq leaver with ⟨_, _, h, _⟩
  rw [h]

/- The street goes on. -/
@[simp] theorem vacate_phase :
    (s.vacate leaver).phase = s.phase := by
  rcases s.vacate_eq leaver with ⟨_, _, h, _⟩
  rw [h]

/- His cards do not come back. -/
@[simp] theorem vacate_deck :
    (s.vacate leaver).deck = s.deck := by
  rcases s.vacate_eq leaver with ⟨_, _, h, _⟩
  rw [h]

/- The board stays. -/
@[simp] theorem vacate_communityCards :
    (s.vacate leaver).communityCards =
      s.communityCards := by
  rcases s.vacate_eq leaver with ⟨_, _, h, _⟩
  rw [h]

/- Leaving a table of one or none skips the index repair. -/
theorem eraseLeaver_players :
    (s.eraseLeaver leaver).players =
      s.players.eraseIdx leaver.removedIndex := by
  rw [← vacate_players]
  rfl

/- The same when the hand ends with him. -/
theorem eraseLeaver_chips :
    (s.eraseLeaver leaver).chips =
      s.chips.erase leaver.player := by
  rw [← vacate_chips]
  rfl

end Vacate

section Leaver

variable {s : GameSession}
variable {leaver : Leaver}

/- The leaver's seat and the others make up the table. -/
theorem players_perm
    (hAt : s.players[leaver.removedIndex]? =
      some leaver.player) :
    (leaver.player ::
        s.players.eraseIdx leaver.removedIndex).Perm
      s.players := by
  rcases List.getElem?_eq_some_iff.mp hAt with ⟨hLt, hGet⟩
  have hPerm := List.getElem_cons_eraseIdx_perm hLt
  rwa [hGet] at hPerm

/- The players who stay are the others. -/
theorem mem_eraseIdx
    {p : PlayerId}
    (hNodup : s.players.Nodup)
    (hAt : s.players[leaver.removedIndex]? =
      some leaver.player) :
    p ∈ s.players.eraseIdx leaver.removedIndex ↔
      p ∈ s.players ∧ p ≠ leaver.player := by
  have hPerm := players_perm hAt
  have hFresh :=
    (List.nodup_cons.mp (hPerm.nodup_iff.mpr hNodup)).1
  rw [← hPerm.mem_iff, List.mem_cons]
  constructor
  · intro hp
    exact ⟨Or.inr hp, fun hEq => hFresh (hEq ▸ hp)⟩
  · rintro ⟨hEq | hp, hNe⟩
    · exact absurd hEq hNe
    · exact hp

/- A folded player's departure leaves as many active. -/
theorem countActivePlayers_vacate
    (hNodup : s.players.Nodup)
    (hAt : s.players[leaver.removedIndex]? =
      some leaver.player)
    (hFolded : leaver.player ∈ s.foldedPlayers) :
    (s.vacate leaver).countActivePlayers =
      s.countActivePlayers := by
  unfold countActivePlayers
  rw [vacate_players, vacate_foldedPlayers,
    ← (players_perm hAt).countP_eq, List.countP_cons,
    if_neg (by simpa using hFolded), Nat.add_zero]
  apply List.countP_congr
  intro p hp
  have hNe := ((mem_eraseIdx hNodup hAt).mp hp).2
  simp [hNe]

end Leaver

end GameSession

end Server

end Poker

import AsciiPoker.Server.GameSession.Stages

/-
  The bets of a round and the bet to match.

  `current_bet_` starts out as what the big blind could
  post.  When that covers the small blind, nobody's bet ever
  exceeds it.

  Main declarations:
    * `GameSession.Capped`, `GameSession.blindAt`
    * `Config.BlindsOrdered`
    * `Table.Run.roundBets_le`,
      `Table.Run.firstHand_roundBets_le`
-/

namespace Poker

namespace Server

open Protocol

namespace GameSession

/- No bet of a seated player exceeds the bet to match. -/
def Capped
    (s : GameSession) : Prop :=
  ∀ p ∈ s.players, s.roundBets.get p ≤ s.currentBet

/- The blind that the stack in a seat can post. -/
def blindAt
    (s : GameSession)
    (index : Nat)
    (blind : UInt32) : UInt32 :=
  match s.players[index]? with
  | some p => min blind (s.stackOf p)
  | none => 0

------------------------------------------------------------
-- Actions
------------------------------------------------------------

section Contribute

variable {s : GameSession}
variable {p q : PlayerId}
variable {amount : UInt32}

theorem roundBets_contribute_self :
    (s.contribute p amount).roundBets.get p =
      s.roundBets.get p + s.actualAmount p amount := by
  rw [contribute_roundBets, KeyMap.get_set_self]

theorem roundBets_contribute_of_ne
    (hNe : q ≠ p) :
    (s.contribute p amount).roundBets.get q =
      s.roundBets.get q := by
  rw [contribute_roundBets, KeyMap.get_set_of_ne _ _ hNe]

/- A call brings a bet up to the bet to match at most. -/
theorem roundBets_call_le
    (hLe : s.roundBets.get p ≤ s.currentBet) :
    s.roundBets.get p +
        s.actualAmount p (s.currentBet - s.roundBets.get p) ≤
      s.currentBet := by
  have hOwed := UInt32.le_iff_toNat_le.mp
    (s.actualAmount_le_amount p
      (s.currentBet - s.roundBets.get p))
  have hRest := UInt32.toNat_sub_add_toNat hLe
  have hLt := s.currentBet.toNat_lt
  rw [UInt32.le_iff_toNat_le,
    UInt32.toNat_add_of_lt (by omega)]
  omega

end Contribute

/- An accepted action keeps every bet below the one to match. -/
theorem Acts.capped
    {s t : GameSession}
    {p : PlayerId}
    {action : Action}
    {amount : Option UInt32}
    (hActs : s.Acts p action amount t)
    (hSeated : p ∈ s.players)
    (hCapped : s.Capped) :
    t.Capped := by
  cases hActs with
  | fold => exact hCapped
  | check => exact hCapped
  | callNothing => exact hCapped
  | call hOwed =>
      intro q hq
      rw [(s.contribute_frame p _).1] at hq
      rw [(s.contribute_frame p _).2.2.2.2.2.1]
      by_cases hEq : q = p
      · subst hEq
        rw [roundBets_contribute_self]
        exact roundBets_call_le (hCapped q hSeated)
      · rw [roundBets_contribute_of_ne hEq]
        exact hCapped q hq
  | @raise total hHigher hMore hMinimum hEnough =>
      intro q hq
      change q ∈ (s.contribute p _).players at hq
      rw [(s.contribute_frame p _).1] at hq
      change (s.contribute p _).roundBets.get q ≤ total
      by_cases hEq : q = p
      · subst hEq
        rw [roundBets_contribute_self,
          actualAmount_eq hEnough, UInt32.add_comm,
          UInt32.sub_add_cancel]
        exact UInt32.le_refl _
      · rw [roundBets_contribute_of_ne hEq]
        exact UInt32.le_trans (hCapped q hq)
          (UInt32.le_of_lt hHigher)

------------------------------------------------------------
-- Blinds and Streets
------------------------------------------------------------

/- The bets of a fresh hand whose big blind is the higher. -/
theorem Dealt.capped
    {s dealt posted : GameSession}
    {shuffle : Shuffle}
    (hDealt : s.Dealt shuffle dealt)
    (hPosted : dealt.postBlinds = .ok posted)
    (hOrdered : s.blindAt s.sbIndex SMALL_BLIND ≤
      s.blindAt s.bbIndex BIG_BLIND) :
    posted.Capped := by
  rcases hDealt.spec with
    ⟨chips, deck, hands, roundBets, total, rfl, _, _, _,
      hServed⟩
  rcases blinds_of_ok hPosted with ⟨sb, bb, hSb, hBb, rfl⟩
  intro q hq
  rw [(contribute_frame _ bb _).1,
    (contribute_frame _ sb _).1] at hq
  change (contribute _ bb BIG_BLIND).roundBets.get q ≤
    (contribute _ bb BIG_BLIND).roundBets.get bb
  by_cases hBig : q = bb
  · rw [hBig]
    exact UInt32.le_refl _
  rw [roundBets_contribute_of_ne hBig]
  by_cases hSmall : q = sb
  · -- The one case that the order of the blinds decides.
    subst hSmall
    have hOrder := hOrdered
    have hSb' : s.players[s.sbIndex]? = some q := hSb
    have hBb' : s.players[s.bbIndex]? = some bb := hBb
    have hMine := hServed q (List.mem_of_getElem? hSb')
    have hOther := hServed bb (List.mem_of_getElem? hBb')
    simp only [blindAt, hSb', hBb'] at hOrder
    have hMineStack : chips.get q = s.stackOf q := by
      simp only [KeyMap.get, hMine.1, Option.getD_some]
      rfl
    have hOtherStack : chips.get bb = s.stackOf bb := by
      simp only [KeyMap.get, hOther.1, Option.getD_some]
      rfl
    rw [roundBets_contribute_self, roundBets_contribute_self,
      roundBets_contribute_of_ne (Ne.symm hBig)]
    unfold actualAmount
    rw [contribute_chips,
      KeyMap.get_set_of_ne _ _ (Ne.symm hBig)]
    dsimp only
    rw [hMine.2, hOther.2, hMineStack, hOtherStack,
      UInt32.zero_add, UInt32.zero_add]
    exact hOrder
  · rw [roundBets_contribute_of_ne hSmall, (hServed q hq).2]
    exact UInt32.zero_le

/- Cleared bets are nothing, and nothing is to match. -/
theorem clearBets_capped
    (s : GameSession) :
    s.clearBets.Capped := by
  intro p _
  have hZero : s.clearBets.roundBets.get p = 0 :=
    KeyMap.get_mapValues_default s.roundBets p
  rw [hZero]
  exact UInt32.le_refl _

/- Whoever stays has the bet he had. -/
theorem Capped.vacate
    {s : GameSession}
    {leaver : Leaver}
    (hNodup : s.players.Nodup)
    (hAt : s.players[leaver.removedIndex]? =
      some leaver.player)
    (hCapped : s.Capped) :
    (s.vacate leaver).Capped := by
  intro p hp
  rw [vacate_players] at hp
  rcases (mem_eraseIdx hNodup hAt).mp hp with ⟨hMem, hNe⟩
  rw [vacate_roundBets, vacate_currentBet,
    KeyMap.get_erase_of_ne _ hNe]
  exact hCapped p hMem

end GameSession

------------------------------------------------------------
-- Runs
------------------------------------------------------------

/-
  At the deal of a hand, the big blind that its seat can
  post is no less than the small blind that its seat can.
-/
def Config.BlindsOrdered
    (c : Config) : Prop :=
  c.pending = .start →
    c.session.blindAt c.session.sbIndex SMALL_BLIND ≤
      c.session.blindAt c.session.bbIndex BIG_BLIND

instance (c : Config) : Decidable c.BlindsOrdered :=
  inferInstanceAs (Decidable (_ → _))

/- The big blind of a session's first hand has a seat. -/
theorem Table.exists_bigBlind
    (table : Table) :
    ∃ p ∈ table.roster.players,
      table.create.players[table.create.bbIndex]? =
        some p := by
  have hTwo := table.roster.two_le_length
  have hLength : table.create.players.length =
      table.roster.seats.length :=
    List.length_map ..
  have hLt : table.create.bbIndex <
      table.create.players.length := by
    unfold GameSession.bbIndex
    split
    · exact Nat.mod_lt _ (by omega)
    · exact Nat.mod_lt _ (by omega)
  exact ⟨_, List.getElem_mem hLt,
    List.getElem?_eq_getElem hLt⟩

/- The first blinds are ordered when everybody can pay. -/
theorem Table.opening_blindsOrdered
    {table : Table}
    (hCovered : ∀ p ∈ table.roster.players,
      BIG_BLIND ≤ table.buyIn p) :
    table.opening.BlindsOrdered := by
  intro _
  rcases table.exists_bigBlind with ⟨bb, hMem, hAt⟩
  have hBig : table.create.blindAt table.create.bbIndex
      BIG_BLIND = BIG_BLIND := by
    unfold GameSession.blindAt
    rw [hAt]
    apply UInt32.toNat_inj.mp
    rw [UInt32.toNat_min]
    exact Nat.min_eq_left
      (UInt32.le_iff_toNat_le.mp (hCovered bb hMem))
  change table.create.blindAt table.create.sbIndex _ ≤
    table.create.blindAt table.create.bbIndex _
  rw [hBig]
  unfold GameSession.blindAt
  split
  · rw [UInt32.le_iff_toNat_le, UInt32.toNat_min]
    exact Nat.le_trans (Nat.min_le_left _ _) (by decide)
  · exact UInt32.zero_le

/- Every step keeps every bet below the one to match. -/
theorem GameSession.Capped.step
    {c d : Config}
    {e : Event}
    (hOrder : c.InOrder)
    (hBlinds : c.BlindsOrdered)
    (hStep : Step c e d)
    (hCapped : c.session.Capped) :
    d.session.Capped := by
  have hNodup := hOrder.1.nodup
  have hLeaver := hOrder.1.leaver
  cases hStep with
  | started hDealt hPosted hQuiet =>
      rcases hQuiet with ⟨_, _, rfl, _⟩
      have hFresh := hDealt.capped hPosted (hBlinds rfl)
      exact hFresh
  | asked hAt hAct => exact hCapped
  | passedOver hAt hAct hCloses => exact hCapped
  | wonByFold hOne => exact hCapped
  | @street s t count phase dealt rest shuffle hMany hPhase
      hDeal hQuiet =>
      rcases hQuiet with ⟨_, _, rfl, _⟩
      exact s.clearBets_capped
  | riverClosed hMany hPhase =>
      exact GameSession.clearBets_capped _
  | pastShowdown hMany hPhase =>
      exact GameSession.clearBets_capped _
  | shownDown hQuiet hPending =>
      rcases hQuiet with ⟨_, _, rfl, _⟩
      exact hCapped
  | singleWinner => exact hCapped
  | awardedNothing hEmpty => exact hCapped
  | @awarded s t award next shuffle hFull hPaid hQuiet =>
      rcases GameSession.payPots_frame hPaid with ⟨chips, hEq⟩
      rcases hQuiet with ⟨_, _, rfl, _⟩
      rw [hEq]
      exact hCapped
  | handOver hEnough hChips => exact hCapped
  | gameOver hOver => exact hCapped
  | leftFew hFew hErased =>
      rcases hLeaver _ rfl with ⟨hAt, _⟩
      have hVacated := hCapped.vacate hNodup hAt
      rcases hErased with rfl | rfl
      · exact hVacated
      · exact hVacated
  | leftOneActive hEnough hOne =>
      rcases hLeaver _ rfl with ⟨hAt, _⟩
      exact hCapped.vacate hNodup hAt
  | leftClosing hEnough hMany hCloses =>
      rcases hLeaver _ rfl with ⟨hAt, _⟩
      exact hCapped.vacate hNodup hAt
  | leftWaiting hEnough hMany hOther hOpen hQuiet =>
      rcases hLeaver _ rfl with ⟨hAt, _⟩
      rcases hQuiet with ⟨_, _, rfl, _⟩
      exact hCapped.vacate hNodup hAt
  | unmapped hEnough hNone => exact hCapped
  | rejected hEnough hPlayer => exact hCapped
  | wonByAction hEnough hPlayer hAt hActs hQuiet hOne =>
      rcases hQuiet with ⟨_, _, rfl, _⟩
      have hActed := hActs.capped (List.mem_of_getElem? hAt)
        hCapped
      exact hActed
  | acted hEnough hPlayer hAt hActs hQuiet hMany hCloses =>
      rcases hQuiet with ⟨_, _, rfl, _⟩
      have hActed := hActs.capped (List.mem_of_getElem? hAt)
        hCapped
      exact hActed
  | notSeated hEnough hNone => exact hCapped
  | leaving hEnough hPlayer hAt hCurrent hWas hPending =>
      exact hCapped

/- Ordered blinds at every deal keep all bets capped. -/
theorem Table.Run.capped
    {table : Table}
    {trace : List (Config × Event)}
    {c : Config}
    (run : table.Run trace c)
    (hBlinds : ∀ p ∈ trace, p.1.BlindsOrdered) :
    c.session.Capped := by
  let Inv : Config → Prop :=
    fun c => c.InOrder ∧ c.session.Capped
  have hKeep : ∀ c e d, Inv c → c.BlindsOrdered →
      c.step e = .ok d → Inv d := by
    rintro c e d ⟨hOrder, hCapped⟩ hOrdered hOk
    exact ⟨hOrder.step hOk,
      hCapped.step hOrder hOrdered (step_of_ok hOk)⟩
  have hStart : Inv table.opening := by
    refine ⟨table.opening_inOrder, fun q _ => ?_⟩
    exact UInt32.le_refl _
  exact (run.invariant hKeep hBlinds hStart).2

/-
  In the first hand of players who can all pay the big blind
  no bet exceeds the bet to match.
-/
theorem Table.Run.firstHand_roundBets_le
    {table : Table}
    {trace : List (Config × Event)}
    {c : Config}
    {p : PlayerId}
    (run : table.Run trace c)
    (hCovered : ∀ p ∈ table.roster.players,
      BIG_BLIND ≤ table.buyIn p)
    (hFirst : ∀ p ∈ trace,
      p.1.pending = .start → p.1 = table.opening)
    (hSeated : p ∈ c.session.players) :
    c.session.roundBets.get p ≤ c.session.currentBet := by
  refine run.capped (fun q hMem hStart => ?_) p hSeated
  rw [hFirst q hMem hStart]
  exact table.opening_blindsOrdered hCovered rfl

/-
  In a run whose every hand is dealt with ordered blinds no
  bet exceeds the bet to match, and what is left to call is
  computed without wrapping around.
-/
theorem Table.Run.roundBets_le
    {table : Table}
    {trace : List (Config × Event)}
    {c : Config}
    {p : PlayerId}
    (run : table.Run trace c)
    (hBlinds : ∀ p ∈ trace, p.1.BlindsOrdered)
    (hSeated : p ∈ c.session.players) :
    c.session.roundBets.get p ≤ c.session.currentBet ∧
      (c.session.currentBet -
          c.session.roundBets.get p).toNat =
        c.session.currentBet.toNat -
          (c.session.roundBets.get p).toNat := by
  have hLe := run.capped hBlinds p hSeated
  exact ⟨hLe, UInt32.toNat_sub_of_le _ _ hLe⟩

/-
  Player 0 calls and folds on the flop, keeping 5 of his 25
  chips, and is the next big blind.
-/
def Event.shortBigBlind : List Event :=
  proceeds 2 ++ [act 0 .call] ++ proceeds 1 ++
    [act 1 .check] ++ proceeds 2 ++ [act 1 .check] ++
    proceeds 1 ++ [act 0 .fold] ++ proceeds 5

/-
  The small blind of 10 exceeds the 5 chips to match, and
  what is left to call wraps around.
-/
theorem Table.shortBigBlind_exceeded :
    ∃ trace c,
      (numbered [25, 100] (by decide)).Run trace c ∧
      (∀ p ∈ (numbered [25, 100] (by decide)).roster.players,
        BIG_BLIND ≤
          (numbered [25, 100] (by decide)).buyIn p) ∧
      c.pending = .done ∧
      1 ∈ c.session.players ∧
      c.session.currentBet < c.session.roundBets.get 1 ∧
      (c.session.currentBet -
        c.session.roundBets.get 1).toNat = 4294967291 := by
  rcases exists_run (numbered [25, 100] (by decide))
      Event.shortBigBlind
      (fun _ c => decide
        (c.pending = .done ∧ 1 ∈ c.session.players ∧
          c.session.currentBet < c.session.roundBets.get 1 ∧
          (c.session.currentBet -
            c.session.roundBets.get 1).toNat = 4294967291))
      (by decide +kernel) with
    ⟨trace, c, run, hTest⟩
  exact ⟨trace, c, run, by decide, of_decide_eq_true hTest⟩

/- Player 1 is short as well, but by the small blind only. -/
def Event.shortSmallBlind : List Event :=
  proceeds 2 ++ [act 0 .call] ++ proceeds 1 ++
    [act 1 .check] ++ proceeds 2 ++ [act 1 .fold] ++
    proceeds 5

theorem Table.shortSmallBlind_roundBets_le :
    ∃ trace c,
      (numbered [100, 25] (by decide)).Run trace c ∧
      c.session.roundBets.get 1 ≤ c.session.currentBet ∧
      (c.session.currentBet -
          c.session.roundBets.get 1).toNat =
        c.session.currentBet.toNat -
          (c.session.roundBets.get 1).toNat := by
  rcases exists_run (numbered [100, 25] (by decide))
      Event.shortSmallBlind
      (fun trace c => decide
        (1 ∈ c.session.players ∧
          ∀ p ∈ trace, p.1.BlindsOrdered))
      (by decide +kernel) with
    ⟨trace, c, run, hTest⟩
  rcases of_decide_eq_true hTest with ⟨hSeated, hBlinds⟩
  exact ⟨trace, c, run, run.roundBets_le hBlinds hSeated⟩

end Server

end Poker

import AsciiPoker.Server.GameSession.Effort
import AsciiPoker.Server.GameSession.FirstHand
import AsciiPoker.Server.GameSession.TableStakes

/-
  Players with nothing left.

  A player who puts in his last chips is marked all-in and
  is not expected to act.  The marks are cleared when a hand
  is dealt, and a player who comes to it without chips gets
  one only if he has a blind to post.

  Main declarations:
    * `GameSession.ZeroMeansAllIn`,
      `GameSession.DealsInStacks`
    * `Config.ExpectsAction`
    * `Table.Run.zeroMeansAllIn_iff`
-/

namespace Poker

namespace Server

open Protocol

namespace GameSession

variable {s t dealt posted : GameSession}
variable {p q : PlayerId}
variable {shuffle : Shuffle}

------------------------------------------------------------
-- All In
------------------------------------------------------------

/- Whoever has not folded is all-in if he has no chips left. -/
def ZeroMeansAllIn
    (s : GameSession) : Prop :=
  ∀ p ∈ s.players, p ∉ s.foldedPlayers →
    (p ∈ s.allInPlayers ↔ s.chips.get p = 0)

/- A player without chips has a blind to post. -/
def DealsInStacks
    (s : GameSession) : Prop :=
  ∀ p ∈ s.players, s.stackOf p = 0 →
    s.players[s.sbIndex]? = some p ∨
      s.players[s.bbIndex]? = some p

instance (s : GameSession) : Decidable s.DealsInStacks :=
  inferInstanceAs (Decidable (∀ p ∈ s.players, _ → _))

/- The marks are right for everybody, folded or not. -/
def AllInMatches
    (s : GameSession) : Prop :=
  ∀ p ∈ s.players,
    (p ∈ s.allInPlayers ↔ s.chips.get p = 0)

theorem AllInMatches.zeroMeansAllIn
    (hMatches : s.AllInMatches) :
    s.ZeroMeansAllIn :=
  fun p hp _ => hMatches p hp

/- Whoever is marked cannot act. -/
theorem AllInMatches.not_canPlayerAct
    (hMatches : s.AllInMatches)
    (hSeated : p ∈ s.players)
    (hEmpty : s.chips.get p = 0) :
    ¬ s.canPlayerAct p := by
  intro hAct
  exact hAct.2 ((hMatches p hSeated).mpr hEmpty)

/- A contribution marks whom it leaves without chips. -/
theorem allIn_contribute_self
    (amount : UInt32)
    (hMarked : p ∈ s.allInPlayers → s.chips.get p = 0) :
    p ∈ (s.contribute p amount).allInPlayers ↔
      (s.contribute p amount).chips.get p = 0 := by
  rw [mem_allInPlayers_contribute]
  constructor
  · rintro (hBefore | ⟨_, hAfter⟩)
    · -- Nothing can be taken from an empty stack.
      rw [contribute_chips, KeyMap.get_set_self]
      unfold actualAmount
      rw [hMarked hBefore]
      have hLeast : min amount 0 = 0 := by
        rw [← UInt32.toNat_inj, UInt32.toNat_min]
        exact Nat.min_zero _
      rw [hLeast]
      rfl
    · exact hAfter
  · intro hAfter
    exact Or.inr ⟨rfl, hAfter⟩

theorem allIn_contribute_of_ne
    (amount : UInt32)
    (hNe : p ≠ q) :
    (p ∈ (s.contribute q amount).allInPlayers ↔
        p ∈ s.allInPlayers) ∧
      (s.contribute q amount).chips.get p =
        s.chips.get p := by
  rw [mem_allInPlayers_contribute, contribute_chips,
    KeyMap.get_set_of_ne _ _ hNe]
  refine ⟨or_iff_left ?_, rfl⟩
  rintro ⟨hSame, _⟩
  exact hNe hSame

theorem AllInMatches.contribute
    (hMatches : s.AllInMatches)
    (player : PlayerId)
    (amount : UInt32) :
    (s.contribute player amount).AllInMatches := by
  intro p hp
  rw [(s.contribute_frame player amount).1] at hp
  by_cases hEq : p = player
  · rw [hEq]
    rw [hEq] at hp
    exact allIn_contribute_self amount (hMatches player hp).mp
  · have hSame := allIn_contribute_of_ne (s := s) amount hEq
    rw [hSame.1, hSame.2]
    exact hMatches p hp

theorem AllInMatches.acts
    {action : Action}
    {amount : Option UInt32}
    (hMatches : s.AllInMatches)
    (hActs : s.Acts p action amount t) :
    t.AllInMatches := by
  cases hActs with
  | fold => exact hMatches
  | check => exact hMatches
  | callNothing => exact hMatches
  | call => exact hMatches.contribute p _
  | raise => exact hMatches.contribute p _

theorem AllInMatches.vacate
    {leaver : Leaver}
    (hMatches : s.AllInMatches)
    (hNodup : s.players.Nodup)
    (hAt : s.players[leaver.removedIndex]? =
      some leaver.player) :
    (s.vacate leaver).AllInMatches := by
  intro p hp
  rw [vacate_players] at hp
  rcases (mem_eraseIdx hNodup hAt).mp hp with ⟨hMem, hNe⟩
  rcases s.vacate_eq leaver with ⟨_, _, hEq, _⟩
  rw [vacate_chips, KeyMap.get_erase_of_ne _ hNe, hEq]
  rw [Finset.mem_erase]
  exact (and_iff_right hNe).trans (hMatches p hMem)

------------------------------------------------------------
-- The Deal
------------------------------------------------------------

/-
  After the blinds the marks are right exactly when nobody
  else came without chips.
-/
theorem Dealt.allInMatches_iff
    (hDealt : s.Dealt shuffle dealt)
    (hPosted : dealt.postBlinds = .ok posted) :
    posted.AllInMatches ↔ s.DealsInStacks := by
  rcases hDealt.renewed with
    ⟨hPlayers, hIndex, _, hAllIn⟩
  have hStack : ∀ p ∈ s.players,
      dealt.chips.get p = s.stackOf p := by
    intro p hp
    rcases hDealt.holding hp with ⟨hChips, _⟩
    simp [KeyMap.get, hChips]
  have hSeats : dealt.players[dealt.sbIndex]? =
        s.players[s.sbIndex]? ∧
      dealt.players[dealt.bbIndex]? =
        s.players[s.bbIndex]? := by
    unfold sbIndex bbIndex
    rw [hPlayers, hIndex]
    exact ⟨rfl, rfl⟩
  rcases blinds_of_ok hPosted with ⟨sb, bb, hSb, hBb, rfl⟩
  rw [hSeats.1] at hSb
  rw [hSeats.2] at hBb
  have hNobody : ∀ p, p ∉ dealt.allInPlayers := by
    intro p
    rw [hAllIn]
    exact Finset.notMem_empty p
  have hSmall : sb ∈
      (dealt.contribute sb SMALL_BLIND).allInPlayers ↔
        (dealt.contribute sb SMALL_BLIND).chips.get sb = 0 :=
    allIn_contribute_self _ fun h => absurd h (hNobody sb)
  have hBig : bb ∈ ((dealt.contribute sb SMALL_BLIND).contribute
        bb BIG_BLIND).allInPlayers ↔
      ((dealt.contribute sb SMALL_BLIND).contribute
        bb BIG_BLIND).chips.get bb = 0 := by
    apply allIn_contribute_self
    intro hMarked
    by_cases hSame : bb = sb
    · rw [hSame]
      rw [hSame] at hMarked
      exact hSmall.mp hMarked
    · have hBefore := (allIn_contribute_of_ne (s := dealt)
        SMALL_BLIND hSame).1.mp hMarked
      exact absurd hBefore (hNobody bb)
  have hOthers : ∀ p, p ≠ sb → p ≠ bb →
      (p ∉ ((dealt.contribute sb SMALL_BLIND).contribute
        bb BIG_BLIND).allInPlayers) ∧
      ((dealt.contribute sb SMALL_BLIND).contribute
        bb BIG_BLIND).chips.get p = dealt.chips.get p := by
    intro p hSb hBb
    have hFirst := allIn_contribute_of_ne (s := dealt)
      SMALL_BLIND hSb
    have hSecond := allIn_contribute_of_ne
      (s := dealt.contribute sb SMALL_BLIND) BIG_BLIND hBb
    rw [hSecond.1, hFirst.1, hSecond.2, hFirst.2]
    exact ⟨hNobody p, rfl⟩
  have hSeated : ∀ p, p ∈
      ((dealt.contribute sb SMALL_BLIND).contribute
        bb BIG_BLIND).players ↔ p ∈ s.players := by
    intro p
    rw [(contribute_frame _ bb _).1,
      (contribute_frame _ sb _).1, hPlayers]
  constructor
  · intro hMatches p hp hEmpty
    by_cases hIsSb : p = sb
    · exact Or.inl (hIsSb ▸ hSb)
    by_cases hIsBb : p = bb
    · exact Or.inr (hIsBb ▸ hBb)
    rcases hOthers p hIsSb hIsBb with ⟨hNot, hSame⟩
    have hZero := hSame.trans ((hStack p hp).trans hEmpty)
    exact absurd
      ((hMatches p ((hSeated p).mpr hp)).mpr hZero) hNot
  · intro hDeals p hp
    have hMem := (hSeated p).mp hp
    by_cases hIsBb : p = bb
    · rw [hIsBb]
      exact hBig
    by_cases hIsSb : p = sb
    · have hSame := allIn_contribute_of_ne
        (s := dealt.contribute sb SMALL_BLIND) BIG_BLIND hIsBb
      subst hIsSb
      have hAfter := hSame.1.trans hSmall
      rw [← hSame.2] at hAfter
      exact hAfter
    · rcases hOthers p hIsSb hIsBb with ⟨hNot, hSame⟩
      refine iff_of_false hNot ?_
      intro hZero
      have hEmpty : s.stackOf p = 0 := by
        rw [← hStack p hMem]
        exact hSame.symm.trans hZero
      rcases hDeals p hMem hEmpty with hAtSb | hAtBb
      · rw [hSb] at hAtSb
        exact hIsSb (Option.some.inj hAtSb).symm
      · rw [hBb] at hAtBb
        exact hIsBb (Option.some.inj hAtBb).symm

end GameSession

------------------------------------------------------------
-- Hands
------------------------------------------------------------

/-
  A player who is about to be asked for an action, or for
  whom the round waits.
-/
def Config.ExpectsAction
    (c : Config)
    (p : PlayerId) : Prop :=
  (c.pending = .askCurrentPlayer ∧
      c.session.players[c.session.currentPlayerIndex]? =
        some p ∧
      c.session.canPlayerAct p) ∨
    c.session.ToAct p

/- Every step in the midst of a hand keeps the marks right. -/
theorem GameSession.AllInMatches.step
    {c d : Config}
    {e : Event}
    (hSeated : c.Seated)
    (hPlaying : c.Playing)
    (hMatches : c.session.AllInMatches)
    (hStep : Step c e d) :
    d.session.AllInMatches := by
  have hNodup := hSeated.nodup
  have hVacate : ∀ leaver : Leaver,
      c.pending = .resume (.finishRemoval leaver) →
      (c.session.vacate leaver).AllInMatches := by
    intro leaver hPending
    have hLeaver : leaver ∈ c.pending.leaver? := by
      rw [hPending]
      rfl
    exact hMatches.vacate hNodup
      (hSeated.leaver leaver hLeaver).1
  cases hStep with
  | started hDealt hPosted hQuiet =>
      exact absurd rfl hPlaying.1
  | asked hAt hAct => exact hMatches
  | passedOver hAt hAct hCloses => exact hMatches
  | wonByFold hOne => exact hMatches
  | street hMany hPhase hDeal hQuiet =>
      rcases hQuiet with ⟨_, _, rfl, _⟩
      exact hMatches
  | riverClosed hMany hPhase => exact hMatches
  | pastShowdown hMany hPhase => exact hMatches
  | shownDown hQuiet hPending =>
      rcases hQuiet with ⟨_, _, rfl, _⟩
      exact hMatches
  | singleWinner => exact hMatches
  | awardedNothing hEmpty => exact hMatches
  | awarded hFull hPaid hQuiet => cases hPlaying.2
  | handOver hEnough hChips => exact hMatches
  | gameOver hOver => exact hMatches
  | @leftFew s t leaver shuffle hFew hErased =>
      rcases hErased with rfl | rfl
      · exact hVacate leaver rfl
      · exact hVacate leaver rfl
  | leftOneActive hEnough hOne => exact hVacate _ rfl
  | leftClosing hEnough hMany hCloses => exact hVacate _ rfl
  | leftWaiting hEnough hMany hOther hOpen hQuiet =>
      have hVacated := hVacate _ rfl
      rcases hQuiet with ⟨_, _, rfl, _⟩
      exact hVacated
  | unmapped hEnough hNone => exact hMatches
  | rejected hEnough hPlayer => exact hMatches
  | wonByAction hEnough hPlayer hAt hActs hQuiet hOne =>
      have hActed := hMatches.acts hActs
      rcases hQuiet with ⟨_, _, rfl, _⟩
      exact hActed
  | acted hEnough hPlayer hAt hActs hQuiet hMany hCloses =>
      have hActed := hMatches.acts hActs
      rcases hQuiet with ⟨_, _, rfl, _⟩
      exact hActed
  | notSeated hEnough hNone => exact hMatches
  | leaving hEnough hPlayer hAt hCurrent hWas hPending =>
      exact hMatches

/- The marks at the start of a hand. -/
theorem Step.allInMatches_iff
    {s : GameSession}
    {e : Event}
    {d : Config}
    (hStep : Step ⟨s, .start⟩ e d) :
    (d.session.AllInMatches ↔ s.DealsInStacks) ∧
      (d.session.ZeroMeansAllIn → d.session.AllInMatches) := by
  cases hStep with
  | @started s dealt posted t shuffle hDealt hPosted hQuiet =>
      have hIff := hDealt.allInMatches_iff hPosted
      have hUnfolded : ∀ p, p ∉ posted.foldedPlayers := by
        intro p
        rcases GameSession.blinds_of_ok hPosted with
          ⟨sb, bb, _, _, rfl⟩
        dsimp only
        rw [(GameSession.contribute_frame _ bb _).2.2.2.2.1,
          (GameSession.contribute_frame _ sb _).2.2.2.2.1,
          hDealt.renewed.2.2.1]
        exact Finset.notMem_empty p
      rcases hQuiet with ⟨_, _, rfl, _⟩
      exact ⟨hIff, fun hZero p hp => hZero p hp (hUnfolded p)⟩

------------------------------------------------------------
-- Runs
------------------------------------------------------------

/-
  In a run a hand is dealt.  Until its pot is awarded, those
  without chips are those who are all-in, among all who have
  not folded, and nobody without chips can act or is waited
  for, exactly when nobody but the blinds came without.
-/
theorem Table.Run.zeroMeansAllIn_iff
    {table : Table}
    {trace : List (Config × Event)}
    {c d : Config}
    {e : Event}
    (run : table.Run trace c)
    (hStart : c.pending = .start)
    (hOk : c.step e = .ok d) :
    (∀ later f,
      Transition.Run Config.step d later f →
      (∀ x ∈ later, x.1.Playing) →
        f.session.ZeroMeansAllIn ∧
          ∀ p ∈ f.session.players,
            f.session.chips.get p = 0 →
              ¬ f.session.canPlayerAct p ∧
                ¬ f.ExpectsAction p) ↔
      c.session.DealsInStacks := by
  have hDeal : Step ⟨c.session, .start⟩ e d := by
    rw [← hStart]
    exact step_of_ok hOk
  rcases hDeal.allInMatches_iff with ⟨hIff, hOnly⟩
  constructor
  · intro hHand
    have hNow := hHand [] d .nil (by simp)
    exact hIff.mp (hOnly hNow.1)
  · intro hDeals later f hLater hPlaying
    have hDealt : table.Run (trace ++ [(c, e)]) d := .snoc run hOk
    have hKeep : ∀ c e d,
        c.Seated ∧ c.session.AllInMatches → c.Playing →
        Config.step c e = .ok d →
        d.Seated ∧ d.session.AllInMatches := by
      rintro c e d ⟨hSeated, hMatches⟩ hMid hOk
      have hStep := step_of_ok hOk
      exact ⟨hSeated.step hStep,
        hMatches.step hSeated hMid hStep⟩
    have hOrder := hDealt.inOrder.1
    rcases hLater.invariant hKeep hPlaying
        ⟨hOrder, hIff.mpr hDeals⟩ with ⟨hSeated, hMatches⟩
    refine ⟨hMatches.zeroMeansAllIn, ?_⟩
    intro p hp hEmpty
    have hAct := hMatches.not_canPlayerAct hp hEmpty
    refine ⟨hAct, ?_⟩
    rintro (⟨_, _, hCan⟩ | hWaits)
    · exact hAct hCan
    · exact hAct hWaits.1

/- Two players with chips: the marks stay right. -/
theorem Table.firstHand_zeroMeansAllIn :
    ∃ d,
      Config.step
          (numbered [1000, 1000] (by decide)).opening
          (.proceed .unshuffled) = .ok d ∧
        ∀ later f,
          Transition.Run Config.step d later f →
          (∀ x ∈ later, x.1.Playing) →
            f.session.ZeroMeansAllIn := by
  have hPasses : Transition.passes Config.step
      (numbered [1000, 1000] (by decide)).opening
      [.proceed .unshuffled] (fun _ _ => true) = true := by
    decide +kernel
  rcases Transition.exists_step_of_passes hPasses with
    ⟨d, hOk, _⟩
  have run : (numbered [1000, 1000] (by decide)).Run []
      (numbered [1000, 1000] (by decide)).opening := .nil
  refine ⟨d, hOk, ?_⟩
  intro later f hLater hPlaying
  exact ((run.zeroMeansAllIn_iff rfl hOk).mpr (by decide)
    later f hLater hPlaying).1

/-
  Player 1 loses his 10 chips in the first hand.  In the
  second one he is the dealer and posts no blind.
-/
def Event.brokeDealer : List Event :=
  proceeds 2 ++ [raiseTo 0 1000] ++ proceeds 1 ++
    [act 2 .call] ++ proceeds 2 ++ [act 0 .check] ++
    proceeds 2 ++ [act 0 .check] ++ proceeds 2 ++
    [act 0 .check] ++ proceeds 6

/- He has no chips and is asked for the first action. -/
theorem Table.bustedDealer_asked :
    ∃ trace c,
      (numbered [2000, 10, 1000] (by decide)).Run trace c ∧
      c.pending = .done ∧ c.session.InProgress ∧
      1 ∈ c.session.players ∧
      1 ∉ c.session.foldedPlayers ∧
      c.session.chips.get 1 = 0 ∧
      c.session.turnsAsked.getLast? = some 1 ∧
      c.ExpectsAction 1 ∧
      ¬ c.session.ZeroMeansAllIn := by
  rcases exists_run
      (numbered [2000, 10, 1000] (by decide))
      Event.brokeDealer
      (fun _ c => decide
        (c.pending = .done ∧ c.session.InProgress ∧
          1 ∈ c.session.players ∧
          1 ∉ c.session.foldedPlayers ∧
          c.session.chips.get 1 = 0 ∧
          c.session.turnsAsked.getLast? = some 1 ∧
          c.session.ToAct 1))
      (by decide +kernel) with
    ⟨trace, c, run, hTest⟩
  rcases of_decide_eq_true hTest with
    ⟨hRest, hProgress, hSeated, hIn, hEmpty, hAsked, hWaits⟩
  refine ⟨trace, c, run, hRest, hProgress, hSeated, hIn,
    hEmpty, hAsked, Or.inr hWaits, ?_⟩
  intro hZero
  exact hWaits.1.2 ((hZero 1 hSeated hIn).mpr hEmpty)

end Server

end Poker

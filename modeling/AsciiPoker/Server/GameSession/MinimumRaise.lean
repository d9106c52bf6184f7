import AsciiPoker.Server.GameSession.Settlement

/-
  The minimum raise within a betting round.

  A raise makes the amount it raises by the next minimum.  A
  player whose whole stack is less may go all-in with it, and
  then the minimum goes down to what he had.

  Main declarations:
    * `Config.Raises`, `Config.RaisesInFull`,
      `Config.KeepsMinimum`
    * `Table.Run.minimumRaise_iff`
-/

namespace Poker

namespace Server

open Protocol

------------------------------------------------------------
-- Accepted Raises
------------------------------------------------------------

namespace Config

variable {c d : Config}
variable {e : Event}

/- A raise to `total` is accepted and leads to `t`. -/
def Raises
    (c : Config)
    (e : Event)
    (total : UInt32)
    (t : GameSession) : Prop :=
  ∃ connection p,
    e = .applyAction connection .raise (some total) ∧
    c.session.getPlayer connection = some p ∧
    c.session.players[c.session.currentPlayerIndex]? =
      some p ∧
    c.session.performAction p .raise (some total) = .ok t

/- A raise is accepted only if it is by the minimum or more. -/
def RaisesInFull
    (c : Config)
    (e : Event) : Prop :=
  ∀ total t, c.Raises e total t →
    c.session.currentBet.toNat +
      c.session.lastRaiseIncrement.toNat ≤ total.toNat

/-
  An accepted raise raises the bet to match, and the next
  minimum is no less than this one.
-/
def KeepsMinimum
    (c : Config)
    (e : Event) : Prop :=
  ∀ total t, c.Raises e total t →
    c.session.currentBet < t.currentBet ∧
      c.session.lastRaiseIncrement ≤ t.lastRaiseIncrement

/- Once a hand is dealt, the minimum is a big blind or more. -/
def HasMinimum
    (c : Config) : Prop :=
  c.pending ≠ .start →
    BIG_BLIND ≤ c.session.lastRaiseIncrement

/- The minimum goes down exactly with a raise below it. -/
theorem keepsMinimum_iff :
    c.KeepsMinimum e ↔ c.RaisesInFull e := by
  have hBy : ∀ total t, c.Raises e total t →
      c.session.currentBet < t.currentBet ∧
        t.lastRaiseIncrement.toNat +
          c.session.currentBet.toNat = total.toNat := by
    rintro total t ⟨connection, p, rfl, _, _, hPerformed⟩
    cases acts_of_ok hPerformed with
    | raise hHigher hMore hMinimum hEnough =>
        exact ⟨hHigher, UInt32.toNat_sub_add_toNat
          (UInt32.le_of_lt hHigher)⟩
  constructor
  · intro hKeeps total t hRaises
    have hLe := UInt32.le_iff_toNat_le.mp
      (hKeeps total t hRaises).2
    have hTotal := (hBy total t hRaises).2
    omega
  · intro hFull total t hRaises
    have hLe := hFull total t hRaises
    have hTotal := (hBy total t hRaises).2
    refine ⟨(hBy total t hRaises).1, ?_⟩
    rw [UInt32.le_iff_toNat_le]
    omega

end Config

------------------------------------------------------------
-- Steps
------------------------------------------------------------

namespace GameSession

variable {s t dealt posted : GameSession}
variable {p : PlayerId}

/- A hand begins with the big blind as its minimum. -/
theorem Dealt.lastRaiseIncrement_eq
    {shuffle : Shuffle}
    (hDealt : s.Dealt shuffle dealt)
    (hPosted : dealt.postBlinds = .ok posted) :
    posted.lastRaiseIncrement = BIG_BLIND := by
  rcases blinds_of_ok hPosted with ⟨sb, bb, _, _, rfl⟩
  rcases hDealt.spec with ⟨_, _, _, _, _, rfl, _⟩
  dsimp only
  rw [contribute_lastRaiseIncrement,
    contribute_lastRaiseIncrement]
  rfl

end GameSession

/- A full raise, or any other action, keeps the minimum. -/
theorem Config.RaisesInFull.acts
    {s t : GameSession}
    {p : PlayerId}
    {connection : ConnId}
    {action : Action}
    {amount : Option UInt32}
    (hFull : Config.RaisesInFull ⟨s, .done⟩
      (.applyAction connection action amount))
    (hPlayer : s.getPlayer connection = some p)
    (hAt : s.players[s.currentPlayerIndex]? = some p)
    (hActs : s.Acts p action amount t) :
    s.lastRaiseIncrement ≤ t.lastRaiseIncrement := by
  have hPerformed := performAction_of_acts hActs
  cases hActs with
  | fold => exact UInt32.le_refl _
  | check => exact UInt32.le_refl _
  | callNothing => exact UInt32.le_refl _
  | call =>
      rw [GameSession.contribute_lastRaiseIncrement]
      exact UInt32.le_refl _
  | raise =>
      exact (Config.keepsMinimum_iff.mpr hFull _ _
        ⟨connection, p, rfl, hPlayer, hAt, hPerformed⟩).2

/- Full raises keep the minimum at a big blind or above. -/
theorem Config.HasMinimum.step
    {c d : Config}
    {e : Event}
    (hHas : c.HasMinimum)
    (hFull : c.RaisesInFull e)
    (hStep : Step c e d) :
    d.HasMinimum := by
  unfold HasMinimum at hHas ⊢
  intro _
  cases hStep with
  | started hDealt hPosted hQuiet =>
      rcases hQuiet with ⟨_, _, rfl, _⟩
      exact UInt32.le_of_eq
        (hDealt.lastRaiseIncrement_eq hPosted).symm
  | asked hAt hAct => exact hHas (by simp)
  | passedOver hAt hAct hCloses => exact hHas (by simp)
  | wonByFold hOne => exact hHas (by simp)
  | street hMany hPhase hDeal hQuiet =>
      rcases hQuiet with ⟨_, _, rfl, _⟩
      exact UInt32.le_refl BIG_BLIND
  | riverClosed hMany hPhase => exact UInt32.le_refl BIG_BLIND
  | pastShowdown hMany hPhase =>
      exact UInt32.le_refl BIG_BLIND
  | shownDown hQuiet hPending =>
      rcases hQuiet with ⟨_, _, rfl, _⟩
      exact hHas (by simp)
  | singleWinner => exact hHas (by simp)
  | awardedNothing hEmpty => exact hHas (by simp)
  | awarded hFull hPaid hQuiet =>
      rcases hQuiet with ⟨_, _, rfl, _⟩
      rcases GameSession.payPots_frame hPaid with ⟨chips, hEq⟩
      dsimp only
      rw [hEq]
      exact hHas (by simp)
  | handOver hEnough hChips => exact hHas (by simp)
  | gameOver hOver => exact hHas (by simp)
  | @leftFew s t leaver shuffle hFew hErased =>
      have hSame : t.lastRaiseIncrement =
          s.lastRaiseIncrement := by
        rcases hErased with rfl | rfl
        · exact GameSession.vacate_lastRaiseIncrement s leaver
        · exact GameSession.vacate_lastRaiseIncrement s leaver
      dsimp only
      rw [hSame]
      exact hHas (by simp)
  | leftOneActive hEnough hOne =>
      rw [GameSession.vacate_lastRaiseIncrement]
      exact hHas (by simp)
  | leftClosing hEnough hMany hCloses =>
      rw [GameSession.vacate_lastRaiseIncrement]
      exact hHas (by simp)
  | leftWaiting hEnough hMany hOther hOpen hQuiet =>
      rcases hQuiet with ⟨_, _, rfl, _⟩
      dsimp only
      rw [GameSession.vacate_lastRaiseIncrement]
      exact hHas (by simp)
  | unmapped hEnough hNone => exact hHas (by simp)
  | rejected hEnough hPlayer => exact hHas (by simp)
  | wonByAction hEnough hPlayer hAt hActs hQuiet hOne =>
      have hKept := hFull.acts hPlayer hAt hActs
      rcases hQuiet with ⟨_, _, rfl, _⟩
      exact UInt32.le_trans (hHas (by simp)) hKept
  | acted hEnough hPlayer hAt hActs hQuiet hMany hCloses =>
      have hKept := hFull.acts hPlayer hAt hActs
      rcases hQuiet with ⟨_, _, rfl, _⟩
      exact UInt32.le_trans (hHas (by simp)) hKept
  | notSeated hEnough hNone => exact hHas (by simp)
  | leaving hEnough hPlayer hAt hCurrent hWas hPending =>
      exact hHas (by simp)

------------------------------------------------------------
-- Runs
------------------------------------------------------------

/-
  In a run the minimum raise never goes down, and is a big
  blind or more in every hand, exactly when no raise below
  it is accepted.
-/
theorem Table.Run.minimumRaise_iff
    {table : Table}
    {trace : List (Config × Event)}
    {c : Config}
    (run : table.Run trace c) :
    ((∀ x ∈ trace, x.1.KeepsMinimum x.2 ∧ x.1.HasMinimum) ∧
        c.HasMinimum) ↔
      ∀ x ∈ trace, x.1.RaisesInFull x.2 := by
  constructor
  · intro hKept x hx
    exact Config.keepsMinimum_iff.mp (hKept.1 x hx).1
  · intro hFull
    have hStart : table.opening.HasMinimum := by
      intro hOpen
      exact absurd rfl hOpen
    have hKeep : ∀ trace c e d,
        ((∀ x ∈ trace, x.1.RaisesInFull x.2) →
          (∀ x ∈ trace, x.1.HasMinimum) ∧ c.HasMinimum) →
        Config.step c e = .ok d →
        (∀ x ∈ trace ++ [(c, e)], x.1.RaisesInFull x.2) →
          (∀ x ∈ trace ++ [(c, e)], x.1.HasMinimum) ∧
            d.HasMinimum := by
      intro trace c e d hBefore hOk hAll
      rcases List.forall_mem_append.mp hAll with
        ⟨hEarlier, hLast⟩
      have hHere := hLast (c, e) (List.mem_singleton_self _)
      rcases hBefore hEarlier with ⟨hTrace, hNow⟩
      refine ⟨List.forall_mem_append.mpr ⟨hTrace, ?_⟩,
        hNow.step hHere (step_of_ok hOk)⟩
      exact List.forall_mem_singleton.mpr hNow
    rcases run.invariant_of_history hKeep
        (fun _ => ⟨by simp, hStart⟩) hFull with ⟨hAll, hEnd⟩
    refine ⟨fun x hx => ⟨?_, hAll x hx⟩, hEnd⟩
    exact Config.keepsMinimum_iff.mpr (hFull x hx)

/- Two raises by 80 chips: the minimum stays there. -/
def Event.fullRaises : List Event :=
  proceeds 2 ++ [raiseTo 0 100] ++ proceeds 1 ++
    [raiseTo 1 180] ++ proceeds 1

theorem Table.fullRaises_minimumRaise :
    ∃ trace c,
      (numbered [1000, 1000] (by decide)).Run trace c ∧
      c.session.lastRaiseIncrement = 80 ∧
      (((∀ x ∈ trace, x.1.KeepsMinimum x.2 ∧
            x.1.HasMinimum) ∧ c.HasMinimum) ↔
        ∀ x ∈ trace, x.1.RaisesInFull x.2) := by
  rcases exists_run (numbered [1000, 1000] (by decide))
      Event.fullRaises
      (fun _ c => decide (c.session.lastRaiseIncrement = 80))
      (by decide +kernel) with
    ⟨trace, c, run, hTest⟩
  exact ⟨trace, c, run, of_decide_eq_true hTest,
    run.minimumRaise_iff⟩

/-
  Player 0 raises by 80, player 1 has 5 chips more than that
  and goes all-in, and player 2 raises by another 5.
-/
def Event.shortAllIn : List Event :=
  proceeds 2 ++ [raiseTo 0 100] ++ proceeds 1 ++
    [raiseTo 1 105] ++ proceeds 1 ++ [raiseTo 2 110]

/- The minimum is 5 then, a quarter of the big blind. -/
theorem Table.shortAllIn_lowers :
    ∃ trace c,
      (numbered [1000, 105, 1000] (by decide)).Run trace c ∧
      c.pending ≠ .start ∧
      c.session.lastRaiseIncrement = 5 ∧
      ¬ c.HasMinimum ∧
      ¬ ∀ x ∈ trace, x.1.KeepsMinimum x.2 := by
  rcases exists_run (numbered [1000, 105, 1000] (by decide))
      Event.shortAllIn
      (fun trace c => decide
        (c.pending ≠ .start ∧
          c.session.lastRaiseIncrement = 5))
      (by decide +kernel) with
    ⟨trace, c, run, hTest⟩
  rcases of_decide_eq_true hTest with ⟨hHand, hFive⟩
  have hLow : ¬ c.HasMinimum := by
    intro hHas
    have hLe := hHas hHand
    rw [hFive] at hLe
    exact absurd hLe (by decide)
  refine ⟨trace, c, run, hHand, hFive, hLow, ?_⟩
  intro hKept
  have hFull : ∀ x ∈ trace, x.1.RaisesInFull x.2 :=
    fun x hx => Config.keepsMinimum_iff.mp (hKept x hx)
  have hStart : (numbered [1000, 105, 1000]
      (by decide)).opening.HasMinimum := by
    intro hOpen
    exact absurd rfl hOpen
  exact hLow (run.invariant
    (fun _ _ _ hHas hFull hOk =>
      hHas.step hFull (step_of_ok hOk)) hFull hStart)

end Server

end Poker

import Mathlib.Data.Finset.Card
import Mathlib.Data.Prod.Lex
import AsciiPoker.Library.Cyclic
import AsciiPoker.Server.GameSession.Conservation

/-
  How much of a hand is still to be played.

  The streets that are left count most, then the chips in
  front of the players, then the players who still have to
  act, then the seats that are passed until the next of them
  and last the call that is left to run.  Whatever is done
  in a hand but leaving it lowers this effort.

  Main declarations:
    * `GameSession.ToAct`, `GameSession.seatsToWait`
    * `Config.effort`, `Config.effort_lt_iff`
    * `Acts.effort_lt`, `Step.effort_lt`
-/

namespace Poker

namespace Server

open Protocol

namespace GameSession

------------------------------------------------------------
-- Who Still Has to Act
------------------------------------------------------------

/- A player the betting round waits for. -/
def ToAct
    (s : GameSession)
    (p : PlayerId) : Prop :=
  s.canPlayerAct p ∧
    (p ∉ s.playersActed ∨ s.roundBets.get p < s.currentBet)

instance
    (s : GameSession)
    (p : PlayerId) :
    Decidable (s.ToAct p) :=
  inferInstanceAs (Decidable (_ ∧ _))

/- All of them. -/
def toAct
    (s : GameSession) : Finset PlayerId :=
  s.players.toFinset.filter s.ToAct

/- Whether one of them sits at `index`. -/
def ToActAt
    (s : GameSession)
    (index : Nat) : Prop :=
  ∃ p ∈ s.players[index]?, s.ToAct p

instance
    (s : GameSession)
    (index : Nat) :
    Decidable (s.ToActAt index) :=
  match h : s.players[index]? with
  | none => .isFalse (by simp [ToActAt, h])
  | some p =>
      decidable_of_iff (s.ToAct p) (by simp [ToActAt, h])

/- The seats from the current one on to the first of them. -/
def seatsToWait
    (s : GameSession) : Nat :=
  Cyclic.wait s.players.length s.currentPlayerIndex s.ToActAt

/- The chips that the seated players have before them. -/
def chipsInFront
    (s : GameSession) : Nat :=
  (s.players.map fun p => (s.chips.get p).toNat).sum

variable {s t u : GameSession}
variable {p : PlayerId}
variable {action : Action}
variable {amount : Option UInt32}

theorem mem_toAct :
    p ∈ s.toAct ↔ p ∈ s.players ∧ s.ToAct p := by
  simp [toAct]

/- Whoever has to act sits somewhere. -/
theorem exists_toActAt
    (hMem : p ∈ s.toAct) :
    ∃ i, i < s.players.length ∧ s.ToActAt i := by
  rcases mem_toAct.mp hMem with ⟨hSeated, hToAct⟩
  rcases List.getElem?_of_mem hSeated with ⟨i, hAt⟩
  exact ⟨i, (List.getElem?_eq_some_iff.mp hAt).1, p, hAt,
    hToAct⟩

/- Nobody has to act: one would go round in vain. -/
theorem seatsToWait_of_nobody
    (hNobody : s.toAct = ∅) :
    s.seatsToWait = s.players.length := by
  apply Cyclic.wait_eq_size
  rintro i _ ⟨p, hAt, hToAct⟩
  have hMem : p ∈ s.toAct :=
    mem_toAct.mpr ⟨List.mem_of_getElem? hAt, hToAct⟩
  rw [hNobody] at hMem
  exact absurd hMem (Finset.notMem_empty p)

/- An open round waits for somebody. -/
theorem toAct_of_open
    (hOpen : s.isRoundComplete = .ok false) :
    ∃ p, p ∈ s.toAct := by
  unfold isRoundComplete at hOpen
  split at hOpen
  · cases hOpen
  · suffices hLoop : ∀ ps : List PlayerId,
        s.roundCompleteLoop ps = .ok false →
        ∃ p ∈ ps, s.ToAct p by
      rcases hLoop s.players hOpen with ⟨p, hp, hToAct⟩
      exact ⟨p, mem_toAct.mpr ⟨hp, hToAct⟩⟩
    intro ps
    induction ps with
    | nil =>
        intro hEnd
        cases hEnd
    | cons p ps ih =>
        intro hLoop
        have hLater : s.roundCompleteLoop ps = .ok false →
            ∃ q ∈ p :: ps, s.ToAct q := by
          intro hRest
          rcases ih hRest with ⟨q, hq, hToAct⟩
          exact ⟨q, List.mem_cons_of_mem _ hq, hToAct⟩
        unfold roundCompleteLoop at hLoop
        split at hLoop
        · exact hLater hLoop
        next hIn =>
          split at hLoop
          · cases hLoop
          next bet hBet =>
            have hGet : s.roundBets.get p = bet := by
              rw [require_eq_ok] at hBet
              simp [KeyMap.get, hBet]
            split at hLoop
            next hBehind =>
              refine ⟨p, List.mem_cons_self .., ⟨hIn, ?_⟩, ?_⟩
              · exact hBehind.2
              · exact Or.inr (hGet ▸ hBehind.1)
            next =>
              split at hLoop
              next hMust =>
                exact ⟨p, List.mem_cons_self .., hMust.1,
                  Or.inl hMust.2⟩
              next => exact hLater hLoop

/- A complete round of two or more waits for nobody. -/
theorem toAct_of_complete
    (hMany : 2 ≤ s.countActivePlayers)
    (hComplete : s.isRoundComplete = .ok true) :
    s.toAct = ∅ := by
  unfold isRoundComplete at hComplete
  rw [if_neg (by omega)] at hComplete
  suffices hLoop : ∀ ps : List PlayerId,
      s.roundCompleteLoop ps = .ok true →
      ∀ p ∈ ps, ¬ s.ToAct p by
    apply Finset.eq_empty_of_forall_notMem
    intro p hp
    rcases mem_toAct.mp hp with ⟨hSeated, hToAct⟩
    exact hLoop s.players hComplete p hSeated hToAct
  intro ps
  induction ps with
  | nil => simp
  | cons p ps ih =>
      intro hLoop q hq hToAct
      unfold roundCompleteLoop at hLoop
      split at hLoop
      next hFolded =>
        rcases List.mem_cons.mp hq with rfl | hRest
        · exact hToAct.1.1 hFolded
        · exact ih hLoop q hRest hToAct
      next hIn =>
        split at hLoop
        · cases hLoop
        next bet hBet =>
          have hGet : s.roundBets.get p = bet := by
            rw [require_eq_ok] at hBet
            simp [KeyMap.get, hBet]
          split at hLoop
          · cases hLoop
          next hLevel =>
            split at hLoop
            · cases hLoop
            next hDone =>
              rcases List.mem_cons.mp hq with rfl | hRest
              · rcases hToAct.2 with hNew | hBehind
                · exact hDone ⟨hToAct.1, hNew⟩
                · exact hLevel ⟨hGet ▸ hBehind, hToAct.1.2⟩
              · exact ih hLoop q hRest hToAct

------------------------------------------------------------
-- The Turn Goes On
------------------------------------------------------------

/- The search stops at the latest where somebody can act. -/
theorem nextActiveLoop_eq
    {rounds index steps : Nat}
    (hLt : steps < rounds)
    (hAct : s.canActAt ((index + steps) % s.players.length))
    (hIndex : index < s.players.length) :
    ∃ passed, passed ≤ steps ∧
      s.nextActiveLoop rounds index =
        (index + passed) % s.players.length := by
  induction rounds generalizing index steps with
  | zero => omega
  | succ rounds ih =>
      unfold nextActiveLoop
      split
      next hOn =>
        have hPos : 0 < s.players.length := by omega
        cases steps with
        | zero =>
            rw [Nat.add_zero, Nat.mod_eq_of_lt hIndex] at hAct
            exact absurd hAct hOn.1
        | succ steps =>
            have hThere : s.canActAt
                (((index + 1) % s.players.length + steps) %
                  s.players.length) := by
              rw [Nat.mod_add_mod]
              have hSum : index + 1 + steps =
                  index + (steps + 1) := by
                omega
              rw [hSum]
              exact hAct
            rcases ih (by omega) hThere (Nat.mod_lt _ hPos) with
              ⟨passed, hLe, hEq⟩
            refine ⟨passed + 1, by omega, ?_⟩
            rw [hEq, Nat.mod_add_mod]
            have hSum : index + 1 + passed =
                index + (passed + 1) := by
              omega
            rw [hSum]
      next =>
        exact ⟨0, Nat.zero_le _,
          (Nat.mod_eq_of_lt hIndex).symm⟩

/-
  When the current seat need not act and another one must,
  the turn comes closer to that one.
-/
theorem seatsToWait_advance
    (hCurrent : s.currentPlayerIndex < s.players.length)
    (hHere : ¬ s.ToActAt s.currentPlayerIndex)
    (hSome : ∃ p, p ∈ s.toAct) :
    s.advanceToNextPlayer.seatsToWait < s.seatsToWait := by
  rcases hSome with ⟨p, hp⟩
  rcases exists_toActAt hp with ⟨i, hi, hToAct⟩
  have hLess : s.seatsToWait < s.players.length :=
    Cyclic.wait_lt hi hToAct
  have hEnd := Cyclic.here_of_wait_lt hLess
  have hPos : 1 ≤ s.seatsToWait := by
    by_contra hZero
    have hNone : s.seatsToWait = 0 := by omega
    unfold seatsToWait at hNone
    rw [hNone, Nat.add_zero, Nat.mod_eq_of_lt hCurrent] at hEnd
    exact hHere hEnd
  have hSeats : s.players ≠ [] := by
    intro hNil
    simp [hNil] at hCurrent
  have hSize : 0 < s.players.length := by omega
  have hAct : s.canActAt
      (((s.currentPlayerIndex + 1) % s.players.length +
        (s.seatsToWait - 1)) % s.players.length) := by
    rw [Nat.mod_add_mod]
    have hSum : s.currentPlayerIndex + 1 + (s.seatsToWait - 1) =
        s.currentPlayerIndex + s.seatsToWait := by
      omega
    rw [hSum]
    rcases hEnd with ⟨q, hAt, hq⟩
    exact ⟨q, hAt, hq.1⟩
  have hShort : s.seatsToWait - 1 < s.players.length := by
    omega
  rcases nextActiveLoop_eq hShort hAct (Nat.mod_lt _ hSize) with
    ⟨passed, hLe, hEq⟩
  have hNext : s.findNextActivePlayer =
      (s.currentPlayerIndex + 1 + passed) %
        s.players.length := by
    unfold findNextActivePlayer
    rw [if_neg hSeats, hEq, Nat.mod_add_mod]
  change Cyclic.wait s.players.length s.findNextActivePlayer
    s.ToActAt < _
  rw [hNext]
  exact Cyclic.wait_advance hLess (by
    change passed + 1 ≤ s.seatsToWait
    omega)

------------------------------------------------------------
-- Actions
------------------------------------------------------------

/- Chips only go from a stack to the pot. -/
theorem Acts.chipsInFront_le
    (hActs : s.Acts p action amount t)
    (hNodup : s.players.Nodup)
    (hDealtIn : ∀ q ∈ s.players, (s.chips.find q).isSome)
    (hSeated : p ∈ s.players) :
    t.chipsInFront ≤ s.chipsInFront ∧
      (action = .raise → t.chipsInFront < s.chipsInFront) := by
  have hMoves : ∀ moved : UInt32,
      (s.contribute p moved).chipsInFront +
        (s.actualAmount p moved).toNat = s.chipsInFront := by
    intro moved
    have hStacks := seatedStacks_contribute moved hNodup
      hDealtIn hSeated
    rw [seatedStacks_of_dealtIn hDealtIn,
      seatedStacks_of_dealtIn (by
        rw [(s.contribute_frame p moved).1]
        exact fun q hq =>
          s.contribute_isSome p moved (hDealtIn q hq))]
      at hStacks
    exact hStacks
  cases hActs with
  | fold => exact ⟨Nat.le_refl _, by simp⟩
  | check => exact ⟨Nat.le_refl _, by simp⟩
  | callNothing => exact ⟨Nat.le_refl _, by simp⟩
  | call =>
      have hHere := hMoves (s.currentBet - s.roundBets.get p)
      exact ⟨by omega, by simp⟩
  | @raise total hHigher hMore hMinimum hEnough =>
      have hHere := hMoves (total - s.roundBets.get p)
      rw [actualAmount_eq hEnough] at hHere
      have hPos : 0 < (total - s.roundBets.get p).toNat := by
        have hSplit := UInt32.toNat_sub_add_toNat
          (UInt32.le_of_lt hMore)
        have hLess := UInt32.lt_iff_toNat_lt.mp hMore
        omega
      change (s.contribute p
          (total - s.roundBets.get p)).chipsInFront ≤ _ ∧
        (_ → (s.contribute p
          (total - s.roundBets.get p)).chipsInFront < _)
      exact ⟨by omega, fun _ => by omega⟩

/- A call levels the bet of a player or takes all he has. -/
theorem contribute_levels
    (hAll : s.actualAmount p (s.currentBet - s.roundBets.get p) =
      s.currentBet - s.roundBets.get p) :
    (s.contribute p
      (s.currentBet - s.roundBets.get p)).roundBets.get p =
        s.currentBet := by
  rw [contribute_roundBets, KeyMap.get_set_self, hAll,
    UInt32.add_comm, UInt32.sub_add_cancel]

/- Who cannot cover an amount is all-in after paying it. -/
theorem mem_allIn_contribute
    (s : GameSession)
    (p : PlayerId)
    (owed : UInt32) :
    s.actualAmount p owed = owed ∨
      p ∈ (s.contribute p owed).allInPlayers := by
  by_cases hEnough : owed ≤ s.chips.get p
  · exact Or.inl (actualAmount_eq hEnough)
  · right
    have hShort : s.actualAmount p owed = s.chips.get p := by
      unfold actualAmount
      apply UInt32.toNat_inj.mp
      rw [UInt32.toNat_min]
      have hLess := UInt32.le_iff_toNat_le.not.mp hEnough
      omega
    unfold contribute markAllInIfNeeded
    have hBroke : (s.moveToPot p
        (s.actualAmount p owed)).chips.get p = 0 := by
      simp [moveToPot, hShort]
    rw [if_pos hBroke]
    exact Finset.mem_insert_self ..

/- Nobody else goes all-in by it. -/
theorem mem_allIn_contribute_of_ne
    {q : PlayerId}
    (s : GameSession)
    (owed : UInt32)
    (hNe : q ≠ p) :
    q ∈ (s.contribute p owed).allInPlayers ↔
      q ∈ s.allInPlayers := by
  unfold contribute markAllInIfNeeded
  split
  · simp [moveToPot, hNe]
  · rfl

/-
  After anything but a raise the round waits for the same
  players, without the one who acted.
-/
theorem Acts.toAct_iff
    (hActs : s.Acts p action amount t)
    (hCalm : action ≠ .raise)
    (q : PlayerId) :
    (t.recordPlayerAction p action).ToAct q ↔
      s.ToAct q ∧ q ≠ p := by
  unfold ToAct canPlayerAct recordPlayerAction
  rw [if_neg hCalm]
  dsimp only
  by_cases hEq : q = p
  · subst hEq
    simp only [ne_eq, not_true_eq_false, and_false, iff_false,
      not_and]
    cases hActs with
    | fold =>
        rintro ⟨hIn, _⟩
        exact absurd (Finset.mem_insert_self ..) hIn
    | check hLevel =>
        rintro _ (hNew | hBehind)
        · exact hNew (Finset.mem_insert_self ..)
        · rw [hLevel] at hBehind
          exact absurd hBehind (UInt32.lt_irrefl _)
    | callNothing hLevel =>
        rintro _ (hNew | hBehind)
        · exact hNew (Finset.mem_insert_self ..)
        · have hSplit := UInt32.sub_add_cancel s.currentBet
            (s.roundBets.get q)
          rw [hLevel, UInt32.zero_add] at hSplit
          rw [hSplit] at hBehind
          exact absurd hBehind (UInt32.lt_irrefl _)
    | call hOwed =>
        rintro ⟨_, hNotAllIn⟩ (hNew | hBehind)
        · exact hNew (Finset.mem_insert_self ..)
        · rcases s.mem_allIn_contribute q
              (s.currentBet - s.roundBets.get q) with
            hAll | hAllIn
          · rw [contribute_levels hAll,
              (s.contribute_frame q _).2.2.2.2.2.1] at hBehind
            exact absurd hBehind (UInt32.lt_irrefl _)
          · exact hNotAllIn hAllIn
    | raise => exact absurd rfl hCalm
  · cases hActs with
    | fold => simp [foldLeaver, hEq]
    | check => simp [hEq]
    | callNothing => simp [hEq]
    | call =>
        have hFrame := s.contribute_frame p
          (s.currentBet - s.roundBets.get p)
        rw [hFrame.2.2.2.2.1, hFrame.2.2.2.2.2.1,
          mem_allIn_contribute_of_ne s _ hEq,
          contribute_roundBets, KeyMap.get_set_of_ne _ _ hEq]
        rw [contribute_playersActed]
        simp [hEq]
    | raise => exact absurd rfl hCalm

/- The same as a set. -/
theorem Acts.toAct_eq
    (hActs : s.Acts p action amount t)
    (hCalm : action ≠ .raise) :
    (t.recordPlayerAction p action).toAct =
      s.toAct.erase p := by
  ext q
  rw [Finset.mem_erase, mem_toAct, mem_toAct,
    hActs.toAct_iff hCalm]
  have hSeats : (t.recordPlayerAction p action).players =
      s.players :=
    hActs.frame.1
  rw [hSeats]
  tauto

end GameSession

------------------------------------------------------------
-- The Effort That Is Left
------------------------------------------------------------

/- The streets of a hand from a phase on. -/
def streetsFrom : GamePhase → Nat
| .preFlop => 4
| .flop => 3
| .turn => 2
| .river => 1
| .showdown => 0

/- The streets that can still be bet on. -/
def Config.streetsLeft
    (c : Config) : Nat :=
  match c.pending with
  | .done => streetsFrom c.session.phase
  | .askCurrentPlayer => streetsFrom c.session.phase
  | .nextPhase => streetsFrom c.session.phase
  | .start => 0
  | .doShowdown => 0
  | .handleSingleWinner => 0
  | .awardAllPots _ => 0
  | .resume _ => 0

/- How far a call still is from the end of its street. -/
def Pending.rank : Pending → Nat
| .askCurrentPlayer => 3
| .done => 2
| .nextPhase => 1
| .doShowdown => 1
| .handleSingleWinner => 1
| .start => 0
| .awardAllPots _ => 0
| .resume _ => 0

/- What is left to be done in a hand, most important first. -/
def Config.effort
    (c : Config) : ℕ ×ₗ ℕ ×ₗ ℕ ×ₗ ℕ ×ₗ ℕ :=
  toLex (c.streetsLeft,
    toLex (c.session.chipsInFront,
      toLex (c.session.toAct.card,
        toLex (c.session.seatsToWait, c.pending.rank))))

theorem Config.effort_lt_iff
    {c d : Config} :
    d.effort < c.effort ↔
      d.streetsLeft < c.streetsLeft ∨
        (d.streetsLeft = c.streetsLeft ∧
          (d.session.chipsInFront < c.session.chipsInFront ∨
            (d.session.chipsInFront = c.session.chipsInFront ∧
              (d.session.toAct.card < c.session.toAct.card ∨
                (d.session.toAct.card = c.session.toAct.card ∧
                  (d.session.seatsToWait <
                      c.session.seatsToWait ∨
                    (d.session.seatsToWait =
                        c.session.seatsToWait ∧
                      d.pending.rank < c.pending.rank))))))) := by
  unfold effort
  simp only [Prod.Lex.toLex_lt_toLex]

end Server

end Poker

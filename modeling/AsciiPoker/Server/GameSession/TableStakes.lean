import AsciiPoker.Server.GameSession.Stages

/-
  What a player can win in one hand, measured by what he put
  into it.

  Main declarations:
    * `GameSession.put`, `GameSession.matched`,
      `GameSession.gained`
    * `GameSession.NotesAll`
    * `Table.Run.tableStakes`
-/

namespace Poker

namespace Server

open Protocol

------------------------------------------------------------
-- What Is Put In
------------------------------------------------------------

namespace GameSession

/- What a player has put in since the hand of `s₀` began. -/
def put
    (s₀ s : GameSession)
    (p : PlayerId) : Nat :=
  (s₀.stackOf p).toNat - (s.chips.get p).toNat

/-
  The contributions noted since the hand of `s₀` began are
  the chips that have left the stacks.
-/
def NotesAll
    (s₀ s : GameSession) : Prop :=
  ∀ p ∈ s.players,
    (s₀.stackOf p).toNat =
      (s.chips.get p).toNat +
        (s.totalContributed.get p).toNat

theorem NotesAll.put_eq
    {s₀ s : GameSession}
    {p : PlayerId}
    (hNotes : s₀.NotesAll s)
    (hSeated : p ∈ s.players) :
    put s₀ s p = (s.totalContributed.get p).toNat := by
  have := hNotes p hSeated
  unfold put
  omega

/- A contribution is noted. -/
theorem NotesAll.contribute
    {s₀ s : GameSession}
    (p : PlayerId)
    (amount : UInt32)
    (hNotes : s₀.NotesAll s) :
    s₀.NotesAll (s.contribute p amount) := by
  intro q hq
  rw [(s.contribute_frame p amount).1] at hq
  have hNoted := hNotes q hq
  rw [contribute_chips, contribute_totalContributed]
  by_cases hEq : q = p
  · subst hEq
    have hTaken := UInt32.toNat_sub_add_toNat
      (s.actualAmount_le_chips q amount)
    have hStack := (s₀.stackOf q).toNat_lt
    rw [KeyMap.get_set_self, KeyMap.get_set_self,
      UInt32.toNat_add_of_lt (by omega)]
    omega
  · rw [KeyMap.get_set_of_ne _ _ hEq,
      KeyMap.get_set_of_ne _ _ hEq]
    exact hNoted

theorem Acts.notesAll
    {s₀ s t : GameSession}
    {p : PlayerId}
    {action : Action}
    {amount : Option UInt32}
    (hActs : s.Acts p action amount t)
    (hNotes : s₀.NotesAll s) :
    s₀.NotesAll t := by
  cases hActs with
  | fold => exact hNotes
  | check => exact hNotes
  | callNothing => exact hNotes
  | call => exact hNotes.contribute p _
  | raise => exact hNotes.contribute p _

/- The blinds of a fresh hand are noted. -/
theorem Dealt.notesAll
    {s dealt posted : GameSession}
    {shuffle : Shuffle}
    (hDealt : s.Dealt shuffle dealt)
    (hPosted : dealt.postBlinds = .ok posted) :
    s.NotesAll posted := by
  rcases hDealt.spec with
    ⟨chips, deck, hands, roundBets, total, rfl, _, _, hNone,
      hServed⟩
  rcases blinds_of_ok hPosted with ⟨sb, bb, _, _, rfl⟩
  refine NotesAll.contribute bb _ (NotesAll.contribute sb _ ?_)
  intro p hp
  have hStack : chips.get p = s.stackOf p := by
    simp [KeyMap.get, (hServed p hp).1]
    rfl
  dsimp only
  rw [hNone p, hStack]
  rfl

/- Those who stay keep their notes. -/
theorem NotesAll.vacate
    {s₀ s : GameSession}
    {leaver : Leaver}
    (hNodup : s.players.Nodup)
    (hAt : s.players[leaver.removedIndex]? =
      some leaver.player)
    (hNotes : s₀.NotesAll s) :
    s₀.NotesAll (s.vacate leaver) := by
  intro p hp
  rw [vacate_players] at hp
  rcases (mem_eraseIdx hNodup hAt).mp hp with ⟨hMem, hNe⟩
  rw [vacate_chips, vacate_totalContributed,
    KeyMap.get_erase_of_ne _ hNe,
    KeyMap.get_erase_of_ne _ hNe]
  exact hNotes p hMem

end GameSession

/- A step in the midst of a hand. -/
def Config.Playing
    (c : Config) : Prop :=
  c.pending ≠ .start ∧ c.pending.isAward = false

instance (c : Config) : Decidable c.Playing :=
  inferInstanceAs (Decidable (_ ∧ _))

/- A step in the midst of a hand notes what it moves. -/
theorem GameSession.NotesAll.step
    {s₀ : GameSession}
    {c d : Config}
    {e : Event}
    (hOrder : c.InOrder)
    (hPlaying : c.Playing)
    (hStep : Step c e d)
    (hNotes : s₀.NotesAll c.session) :
    s₀.NotesAll d.session := by
  have hNodup := hOrder.1.nodup
  have hLeaver := hOrder.1.leaver
  cases hStep with
  | started hDealt hPosted hQuiet =>
      exact absurd rfl hPlaying.1
  | asked hAt hAct => exact hNotes
  | passedOver hAt hAct hCloses => exact hNotes
  | wonByFold hOne => exact hNotes
  | street hMany hPhase hDeal hQuiet =>
      rcases hQuiet with ⟨_, _, rfl, _⟩
      exact hNotes
  | riverClosed hMany hPhase => exact hNotes
  | pastShowdown hMany hPhase => exact hNotes
  | shownDown hQuiet hPending =>
      rcases hQuiet with ⟨_, _, rfl, _⟩
      exact hNotes
  | singleWinner => exact hNotes
  | awardedNothing hEmpty => cases hPlaying.2
  | awarded hFull hPaid hQuiet => cases hPlaying.2
  | handOver hEnough hChips => exact hNotes
  | gameOver hOver => exact hNotes
  | leftFew hFew hErased =>
      rcases hLeaver _ rfl with ⟨hAt, _⟩
      have hVacated := hNotes.vacate hNodup hAt
      rcases hErased with rfl | rfl
      · exact hVacated
      · exact hVacated
  | leftOneActive hEnough hOne =>
      rcases hLeaver _ rfl with ⟨hAt, _⟩
      exact hNotes.vacate hNodup hAt
  | leftClosing hEnough hMany hCloses =>
      rcases hLeaver _ rfl with ⟨hAt, _⟩
      exact hNotes.vacate hNodup hAt
  | leftWaiting hEnough hMany hOther hOpen hQuiet =>
      rcases hLeaver _ rfl with ⟨hAt, _⟩
      rcases hQuiet with ⟨_, _, rfl, _⟩
      exact hNotes.vacate hNodup hAt
  | unmapped hEnough hNone => exact hNotes
  | rejected hEnough hPlayer => exact hNotes
  | wonByAction hEnough hPlayer hAt hActs hQuiet hOne =>
      rcases hQuiet with ⟨_, _, rfl, _⟩
      have hActed := hActs.notesAll hNotes
      exact hActed
  | acted hEnough hPlayer hAt hActs hQuiet hMany hCloses =>
      rcases hQuiet with ⟨_, _, rfl, _⟩
      have hActed := hActs.notesAll hNotes
      exact hActed
  | notSeated hEnough hNone => exact hNotes
  | leaving hEnough hPlayer hAt hCurrent hWas hPending =>
      exact hNotes

------------------------------------------------------------
-- What Is Won
------------------------------------------------------------

namespace GameSession

/- What a player's stack has grown by. -/
def gained
    (s t : GameSession)
    (p : PlayerId) : Nat :=
  (t.chips.get p - s.chips.get p).toNat

/-
  What the seated players have put in since the hand of `s₀`
  began, counting at most `height` of each.
-/
def matched
    (s₀ s : GameSession)
    (height : Nat) : Nat :=
  (s.players.map fun q => min (put s₀ s q) height).sum

theorem NotesAll.matched_eq
    {s₀ s : GameSession}
    (height : Nat)
    (hNotes : s₀.NotesAll s) :
    matched s₀ s height =
      Layers.below height (SidePots.piles s.remaining) := by
  rw [piles_remaining]
  unfold matched Layers.below stakes
  rw [List.map_map]
  apply List.sum_map_congr
  intro q hq
  rw [hNotes.put_eq hq]
  rfl

/- An award gives nobody more than the pots he can win. -/
theorem gained_le_winnable
    {s : GameSession}
    {next : AfterAward}
    {e : Event}
    {d : Config}
    {i : Nat}
    {p : PlayerId}
    (hSeated : Config.Seated ⟨s, .awardAllPots next⟩)
    (hStep : Step ⟨s, .awardAllPots next⟩ e d)
    (hAt : s.players[i]? = some p) :
    s.gained d.session p ≤
      SidePots.winnable
        (computeSidePots s.potPlayerStates) i := by
  have hNodup : s.players.Nodup := hSeated.nodup
  have hFew : s.players.length ≤ 26 :=
    (hSeated.dealtIn (by simp)).1
  cases hStep with
  | awardedNothing hEmpty => simp [gained]
  | awarded hFull hPaid hQuiet =>
      rcases award_pays hNodup (by omega) hPaid with
        ⟨gain, hPays, _, hWinnable⟩
      rcases hQuiet with ⟨_, _, rfl, _⟩
      have hGain : ∀ a b : UInt32, a + b - a = b := by
        intro a b
        rw [UInt32.add_comm, UInt32.add_sub_cancel]
      unfold gained
      dsimp only
      rw [hPays.chips_get p, hGain, UInt32.toNat_ofNat']
      exact Nat.le_trans (Nat.mod_le _ _) (hWinnable i p hAt)

section Winnable

variable {s : GameSession}
variable {i : Nat}
variable {p : PlayerId}

/- The pots the player in a seat can win. -/
def winnableAt
    (s : GameSession)
    (i : Nat) : Nat :=
  SidePots.winnable (computeSidePots s.potPlayerStates) i

/- A folded player wins no pot. -/
theorem winnableAt_of_folded
    (hAt : s.players[i]? = some p)
    (hFolded : p ∈ s.foldedPlayers) :
    s.winnableAt i = 0 := by
  apply SidePots.winnable_loop_eq_zero
  intro hMem
  rcases mem_unfolded.mp hMem with ⟨q, hq, hIn⟩
  rw [hAt] at hq
  cases hq
  exact hIn hFolded

/- A player with a stake wins at most up to its height. -/
theorem winnableAt_le_of_pos
    (hAt : s.players[i]? = some p)
    (hPos : 0 < (s.totalContributed.get p).toNat) :
    s.winnableAt i ≤
      Layers.below (s.totalContributed.get p).toNat
        (SidePots.piles s.remaining) := by
  have hBound := SidePots.winnable_loop_le
    (SidePots.unfolded s.potPlayerStates).length s.remaining
    (SidePots.unfolded s.potPlayerStates) i
  rw [entry_remaining hAt, if_pos hPos] at hBound
  exact hBound

/- A player without one wins at most the first layer. -/
theorem winnableAt_le_of_zero
    {r : PlayerId}
    (hAt : s.players[i]? = some p)
    (hZero : (s.totalContributed.get p).toNat = 0)
    (hSeated : r ∈ s.players)
    (hIn : r ∉ s.foldedPlayers)
    (hPos : 0 < (s.totalContributed.get r).toNat) :
    s.winnableAt i ≤
      Layers.below (s.totalContributed.get r).toNat
        (SidePots.piles s.remaining) := by
  have hBound := SidePots.winnable_loop_le
    (SidePots.unfolded s.potPlayerStates).length s.remaining
    (SidePots.unfolded s.potPlayerStates) i
  rw [entry_remaining hAt, hZero,
    if_neg (Nat.lt_irrefl 0)] at hBound
  apply Nat.le_trans hBound
  apply Layers.below_mono
  rcases List.getElem?_of_mem hSeated with ⟨j, hj⟩
  have hLeast := @SidePots.minBet_le s.remaining
    (SidePots.unfolded s.potPlayerStates) j
    (mem_unfolded.mpr ⟨r, hj, hIn⟩)
  rw [entry_remaining hj] at hLeast
  split
  · exact Nat.zero_le _
  · exact hLeast hPos

/- There is nothing to win when nobody still in has a stake. -/
theorem winnableAt_of_nobody
    (hAt : s.players[i]? = some p)
    (hNobody : ∀ r ∈ s.players, r ∉ s.foldedPlayers →
      (s.totalContributed.get r).toNat = 0) :
    s.winnableAt i = 0 := by
  by_cases hFolded : p ∈ s.foldedPlayers
  · exact winnableAt_of_folded hAt hFolded
  have hBound := SidePots.winnable_loop_le
    (SidePots.unfolded s.potPlayerStates).length s.remaining
    (SidePots.unfolded s.potPlayerStates) i
  have hTop : SidePots.minBet s.remaining
      (SidePots.unfolded s.potPlayerStates) = uint32Max := by
    rcases SidePots.minBet_mem s.remaining
        (SidePots.unfolded s.potPlayerStates) with
      hTop | ⟨j, hj, hPos, _⟩
    · exact hTop
    · rcases mem_unfolded.mp hj with ⟨q, hq, hIn⟩
      rw [entry_remaining hq,
        hNobody q (List.mem_of_getElem? hq) hIn] at hPos
      exact absurd hPos (Nat.lt_irrefl 0)
  rw [entry_remaining hAt,
    hNobody p (List.mem_of_getElem? hAt) hFolded,
    if_neg (Nat.lt_irrefl 0), if_pos hTop,
    Layers.below_zero] at hBound
  exact Nat.le_zero.mp hBound

end Winnable

end GameSession

------------------------------------------------------------
-- Hands
------------------------------------------------------------

/-
  A hand of a run, from its deal to its award: it begins
  with the session `s₀`, its award begins with `s` and ends
  with `d`.
-/
def Table.SettledHand
    (table : Table)
    (s₀ s : GameSession)
    (d : Config) : Prop :=
  ∃ earlier dealing c hand next settling,
    table.Run earlier ⟨s₀, .start⟩ ∧
    Config.step ⟨s₀, .start⟩ dealing = .ok c ∧
    Transition.Run Config.step c hand
      ⟨s, .awardAllPots next⟩ ∧
    (∀ p ∈ hand, p.1.Playing) ∧
    Config.step ⟨s, .awardAllPots next⟩ settling = .ok d

section Hands

variable {table : Table}
variable {s₀ s : GameSession}
variable {d : Config}

/- All that is put into a hand is noted when it settles. -/
theorem Table.SettledHand.notesAll
    (hHand : table.SettledHand s₀ s d) :
    s₀.NotesAll s ∧
      ∃ next e, Config.InOrder ⟨s, .awardAllPots next⟩ ∧
        Step ⟨s, .awardAllPots next⟩ e d := by
  rcases hHand with
    ⟨earlier, dealing, c, hand, next, settling, run, hDeal,
      play, hPlaying, hAward⟩
  let Inv : Config → Prop :=
    fun c => c.InOrder ∧ s₀.NotesAll c.session
  have hKeep : ∀ c e d, Inv c → c.Playing →
      c.step e = .ok d → Inv d := by
    rintro c e d ⟨hOrder, hNotes⟩ hPlays hOk
    exact ⟨hOrder.step hOk,
      hNotes.step hOrder hPlays (step_of_ok hOk)⟩
  have hStart : Inv c := by
    refine ⟨run.inOrder.step hDeal, ?_⟩
    cases step_of_ok hDeal with
    | started hDealt hPosted hQuiet =>
        rcases hQuiet with ⟨_, _, rfl, _⟩
        have hNotes := hDealt.notesAll hPosted
        exact hNotes
  have hEnd := play.invariant hKeep hPlaying hStart
  exact ⟨hEnd.2, next, settling, hEnd.1, step_of_ok hAward⟩

/-
  What the award of a hand pays a seated player: nothing
  when he has folded; at most what others put in up to his
  own stake when he has one; and at most the first layer,
  as high as the least stake still in, when he has none.
-/
theorem Table.SettledHand.tableStakes
    {p : PlayerId}
    (hHand : table.SettledHand s₀ s d)
    (hSeated : p ∈ s.players) :
    (p ∈ s.foldedPlayers → s.gained d.session p = 0) ∧
      (0 < s₀.put s p →
        s.gained d.session p ≤ s₀.matched s (s₀.put s p)) ∧
      (s₀.put s p = 0 →
        (∀ r ∈ s.players, r ∉ s.foldedPlayers →
          0 < s₀.put s r →
          s.gained d.session p ≤
            s₀.matched s (s₀.put s r)) ∧
        ((∀ r ∈ s.players, r ∉ s.foldedPlayers →
          s₀.put s r = 0) → s.gained d.session p = 0)) := by
  rcases hHand.notesAll with
    ⟨hNotes, next, e, hOrder, hStep⟩
  rcases List.getElem?_of_mem hSeated with ⟨i, hi⟩
  have hGained : s.gained d.session p ≤ s.winnableAt i :=
    GameSession.gained_le_winnable hOrder.1 hStep hi
  rw [hNotes.put_eq hSeated]
  refine ⟨?_, ?_, fun hZero => ⟨?_, ?_⟩⟩
  · intro hFolded
    have := GameSession.winnableAt_of_folded hi hFolded
    omega
  · intro hPos
    rw [hNotes.matched_eq]
    exact Nat.le_trans hGained
      (GameSession.winnableAt_le_of_pos hi hPos)
  · intro r hr hIn hPos
    rw [hNotes.put_eq hr] at hPos ⊢
    rw [hNotes.matched_eq]
    exact Nat.le_trans hGained
      (GameSession.winnableAt_le_of_zero hi hZero hr hIn hPos)
  · intro hNobody
    have hNone := GameSession.winnableAt_of_nobody hi
      (fun r hr hIn => by
        rw [← hNotes.put_eq hr]
        exact hNobody r hr hIn)
    omega

/- Whether events play a hand that passes a test. -/
def Table.handPasses
    (table : Table)
    (before hand : List Event)
    (test : GameSession → GameSession → Config → Bool) :
    Bool :=
  match Transition.exec Config.step table.opening before with
  | .ok ⟨s₀, .start⟩ =>
      match Config.step ⟨s₀, .start⟩
        (.proceed .unshuffled) with
      | .ok c =>
          (Transition.execTrace Config.step c hand).all
              (fun p => decide p.1.Playing) &&
            match Transition.exec Config.step c hand with
            | .ok ⟨s, .awardAllPots next⟩ =>
                match Config.step ⟨s, .awardAllPots next⟩
                  (.proceed .unshuffled) with
                | .ok d => test s₀ s d
                | .error _ => false
            | _ => false
      | .error _ => false
  | _ => false

theorem Table.exists_settledHand
    (table : Table)
    (before hand : List Event)
    (test : GameSession → GameSession → Config → Bool)
    (hPasses : table.handPasses before hand test = true) :
    ∃ s₀ s d, table.SettledHand s₀ s d ∧
      test s₀ s d = true := by
  unfold handPasses at hPasses
  split at hPasses
  next s₀ hBefore =>
    split at hPasses
    next c hDeal =>
      rw [Bool.and_eq_true, List.all_eq_true] at hPasses
      rcases hPasses with ⟨hPlaying, hPasses⟩
      split at hPasses
      next s next hHand =>
        split at hPasses
        next d hAward =>
          refine ⟨s₀, s, d, ?_, hPasses⟩
          exact ⟨_, _, c, _, next, _,
            Transition.exec_run hBefore, hDeal,
            Transition.exec_run hHand,
            fun p hp => of_decide_eq_true (hPlaying p hp),
            hAward⟩
        next => cases hPasses
      next => cases hPasses
    next => cases hPasses
  next => cases hPasses

/-
  The first hand busts player 2 at a table of 20, 40 and 20
  chips; in the second one he posts an empty small blind.
-/
def Event.bustingHand : List Event :=
  [.proceed (.cut 7)] ++ proceeds 1 ++ [act 0 .call] ++
    proceeds 1 ++ [act 1 .call] ++ proceeds 2 ++
    [act 1 .check] ++ proceeds 2 ++ [act 1 .check] ++
    proceeds 2 ++ [act 1 .check] ++ proceeds 4

def Event.bustedHand : List Event :=
  proceeds 1 ++ [act 1 .call] ++ proceeds 1 ++
    [act 0 .check] ++ proceeds 2 ++ [act 0 .check] ++
    proceeds 2 ++ [act 0 .check] ++ proceeds 2 ++
    [act 0 .check] ++ proceeds 2

/- Player 2 puts nothing in and wins 40 chips. -/
theorem Table.busted_wins :
    ∃ s₀ s d,
      (numbered [20, 40, 20] (by decide)).SettledHand
        s₀ s d ∧
      2 ∈ s.players ∧ s₀.put s 2 = 0 ∧
      s₀.matched s (s₀.put s 2) = 0 ∧
      s.gained d.session 2 = 40 := by
  rcases exists_settledHand
      (numbered [20, 40, 20] (by decide))
      Event.bustingHand Event.bustedHand
      (fun s₀ s d => decide
        (2 ∈ s.players ∧ s₀.put s 2 = 0 ∧
          s₀.matched s (s₀.put s 2) = 0 ∧
          s.gained d.session 2 = 40))
      (by decide +kernel) with
    ⟨s₀, s, d, hHand, hTest⟩
  exact ⟨s₀, s, d, hHand, of_decide_eq_true hTest⟩

/- The bound on what player 2 wins is reached. -/
theorem Table.busted_wins_tableStakes :
    ∃ s₀ s d,
      (numbered [20, 40, 20] (by decide)).SettledHand
        s₀ s d ∧
      s₀.put s 2 = 0 ∧
      s.gained d.session 2 ≤ s₀.matched s (s₀.put s 0) := by
  rcases exists_settledHand
      (numbered [20, 40, 20] (by decide))
      Event.bustingHand Event.bustedHand
      (fun s₀ s _ => decide
        (2 ∈ s.players ∧ s₀.put s 2 = 0 ∧
          0 ∈ s.players ∧ 0 ∉ s.foldedPlayers ∧
          0 < s₀.put s 0))
      (by decide +kernel) with
    ⟨s₀, s, d, hHand, hTest⟩
  rcases of_decide_eq_true hTest with
    ⟨hSeated, hZero, hOther, hIn, hPos⟩
  exact ⟨s₀, s, d, hHand, hZero,
    ((hHand.tableStakes hSeated).2.2 hZero).1 0 hOther hIn
      hPos⟩

end Hands

end Server

end Poker

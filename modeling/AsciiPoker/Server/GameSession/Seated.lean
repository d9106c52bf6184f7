import AsciiPoker.Server.GameSession.Settlement

/-
  Who sits at the table at every point of a run.

  Main declarations:
    * `GameSession.Acts.frame`
    * `Config.Seated`, `Config.Seated.step`
-/

namespace Poker

namespace Server

open Protocol

------------------------------------------------------------
-- Actions
------------------------------------------------------------

namespace GameSession

section Acts

variable {s t : GameSession}
variable {p : PlayerId}
variable {action : Action}
variable {amount : Option UInt32}

/- The fields that no accepted action touches. -/
theorem Acts.frame
    (hActs : s.Acts p action amount t) :
    t.players = s.players ∧
      t.connectionMap = s.connectionMap ∧
      t.phase = s.phase ∧
      t.turnsAsked = s.turnsAsked := by
  cases hActs with
  | fold => exact ⟨rfl, rfl, rfl, rfl⟩
  | check => exact ⟨rfl, rfl, rfl, rfl⟩
  | callNothing => exact ⟨rfl, rfl, rfl, rfl⟩
  | call =>
      have hFrame := s.contribute_frame p
        (s.currentBet - s.roundBets.get p)
      exact ⟨hFrame.1, hFrame.2.1,
        hFrame.2.2.2.2.2.2.1, hFrame.2.2.2.2.2.2.2.2.2⟩
  | @raise total =>
      have hFrame := s.contribute_frame p
        (total - s.roundBets.get p)
      exact ⟨hFrame.1, hFrame.2.1,
        hFrame.2.2.2.2.2.2.1, hFrame.2.2.2.2.2.2.2.2.2⟩

/- The turn stays where it is until it is passed on. -/
theorem Acts.currentPlayerIndex_eq
    (hActs : s.Acts p action amount t) :
    t.currentPlayerIndex = s.currentPlayerIndex := by
  cases hActs with
  | fold => rfl
  | check => rfl
  | callNothing => rfl
  | call =>
      exact (s.contribute_frame p _).2.2.2.2.2.2.2.2.1
  | raise =>
      exact (s.contribute_frame p _).2.2.2.2.2.2.2.2.1

/- Nothing is sent or stored before the action is recorded. -/
theorem Acts.log_eq
    (hActs : s.Acts p action amount t) :
    t.log = s.log := by
  cases hActs with
  | fold => rfl
  | check => rfl
  | callNothing => rfl
  | call => exact s.contribute_log p _
  | raise => exact s.contribute_log p _

/- Only a fold changes who has folded. -/
theorem Acts.foldedPlayers_eq
    (hActs : s.Acts p action amount t) :
    t.foldedPlayers = s.foldedPlayers ∨
      t = s.foldLeaver p := by
  cases hActs with
  | fold => exact Or.inr rfl
  | check => exact Or.inl rfl
  | callNothing => exact Or.inl rfl
  | call =>
      exact Or.inl
        (s.contribute_frame p _).2.2.2.2.1
  | raise =>
      exact Or.inl
        (s.contribute_frame p _).2.2.2.2.1

/- A stack stays a stack, whatever is bet from it. -/
theorem contribute_isSome
    (s : GameSession)
    (player : PlayerId)
    (amount : UInt32)
    {q : PlayerId}
    (hSome : (s.chips.find q).isSome) :
    ((s.contribute player amount).chips.find q).isSome := by
  rw [contribute_chips, KeyMap.find_set]
  by_cases hEq : q = player
  · simp [hEq]
  · simpa [hEq] using hSome

theorem Acts.isSome
    {q : PlayerId}
    (hActs : s.Acts p action amount t)
    (hSome : (s.chips.find q).isSome) :
    (t.chips.find q).isSome := by
  cases hActs with
  | fold => exact hSome
  | check => exact hSome
  | callNothing => exact hSome
  | call => exact s.contribute_isSome p _ hSome
  | raise => exact s.contribute_isSome p _ hSome

end Acts

------------------------------------------------------------
-- Counting the Active
------------------------------------------------------------

/- A fold takes at most one player out of the hand. -/
theorem countActivePlayers_foldLeaver
    {s : GameSession}
    (p : PlayerId)
    (hNodup : s.players.Nodup) :
    s.countActivePlayers ≤
        (s.foldLeaver p).countActivePlayers + 1 ∧
      (s.foldLeaver p).countActivePlayers ≤
        s.countActivePlayers := by
  unfold countActivePlayers foldLeaver
  dsimp only
  generalize s.players = ps at hNodup ⊢
  refine ⟨?_, List.countP_mono_left ?_⟩
  · induction ps with
    | nil => simp
    | cons q ps ih =>
        rw [List.nodup_cons] at hNodup
        by_cases hEq : q = p
        · -- Nobody else is `p`, so the rest counts alike.
          have hRest : ps.countP
              (fun x => x ∉ insert p s.foldedPlayers) =
                ps.countP (fun x => x ∉ s.foldedPlayers) := by
            apply List.countP_congr
            intro x hx
            have hNe : x ≠ p :=
              fun h => hNodup.1 (hEq ▸ h ▸ hx)
            simp [hNe]
          rw [List.countP_cons, List.countP_cons, hRest]
          split <;> omega
        · have hRec := ih hNodup.2
          have hHead : (q ∉ insert p s.foldedPlayers) ↔
              q ∉ s.foldedPlayers := by
            simp [hEq]
          rw [List.countP_cons, List.countP_cons]
          simp only [hHead]
          omega
  · intro x _ hx
    simp only [decide_eq_true_eq, Finset.mem_insert,
      not_or] at hx ⊢
    exact hx.2

/- Before anybody folds, everybody is active. -/
theorem countActivePlayers_of_empty
    {s : GameSession}
    (hNobody : s.foldedPlayers = ∅) :
    s.countActivePlayers = s.players.length := by
  simp [countActivePlayers, hNobody]

end GameSession

------------------------------------------------------------
-- Who Sits at the Table
------------------------------------------------------------

/- The leaver whose removal a pending call belongs to. -/
def Pending.leaver? : Pending → Option Leaver
| .awardAllPots (.finishRemoval leaver) => some leaver
| .resume (.finishRemoval leaver) => some leaver
| _ => none

/- Whether a call is an award. -/
def Pending.isAward : Pending → Bool
| .awardAllPots _ => true
| _ => false

/- Whether a pending call settles a hand. -/
def Pending.settles : Pending → Bool
| .done => false
| .start => false
| .askCurrentPlayer => false
| .nextPhase => false
| .doShowdown => false
| .handleSingleWinner => true
| .awardAllPots _ => true
| .resume _ => false

@[simp] theorem closes_leaver?
    {s : GameSession}
    {pending : Pending}
    (hCloses : s.Closes pending) :
    pending.leaver? = none := by
  rcases hCloses with ⟨_, rfl⟩ | ⟨_, rfl⟩
  · rfl
  · rfl

theorem closes_settles
    {s : GameSession}
    {pending : Pending}
    (hCloses : s.Closes pending) :
    pending.settles = false := by
  rcases hCloses with ⟨_, rfl⟩ | ⟨_, rfl⟩
  · rfl
  · rfl

theorem closes_ne_start
    {s : GameSession}
    {pending : Pending}
    (hCloses : s.Closes pending) :
    pending ≠ .start := by
  rcases hCloses with ⟨_, rfl⟩ | ⟨_, rfl⟩
  · simp
  · simp

/-
  The players are different, a leaver is still in his seat
  and has folded, and whoever was dealt in has a stack.  A
  deck serves no more than twenty-six players.
-/
structure Config.Seated
    (c : Config) : Prop where
  nodup : c.session.players.Nodup
  leaver : ∀ l ∈ c.pending.leaver?,
    c.session.players[l.removedIndex]? = some l.player ∧
      l.player ∈ c.session.foldedPlayers
  dealtIn : c.pending ≠ .start →
    c.session.players.length ≤ 26 ∧
      ∀ p ∈ c.session.players,
        (c.session.chips.find p).isSome

theorem Table.opening_seated
    (table : Table) :
    table.opening.Seated where
  nodup := table.roster.players_nodup
  leaver := fun l hl => by simp [opening, Pending.leaver?] at hl
  dealtIn := fun h => absurd rfl h

/- A freshly dealt table: the stacks of its players. -/
theorem GameSession.started_dealtIn
    {s dealt posted : GameSession}
    {shuffle : Shuffle}
    (hDealt : s.Dealt shuffle dealt)
    (hPosted : dealt.postBlinds = .ok posted) :
    posted.players = s.players ∧
      posted.foldedPlayers = ∅ ∧
      s.players.length ≤ 26 ∧
      ∀ p ∈ s.players, (posted.chips.find p).isSome := by
  rcases hDealt.spec with
    ⟨chips, deck, hands, roundBets, total, rfl, hDeck, _, _,
      hServed⟩
  rcases blinds_of_ok hPosted with ⟨sb, bb, _, _, rfl⟩
  refine ⟨?_, ?_, ?_, ?_⟩
  · rw [(contribute_frame _ bb _).1,
      (contribute_frame _ sb _).1]
    rfl
  · rw [(contribute_frame _ bb _).2.2.2.2.1,
      (contribute_frame _ sb _).2.2.2.2.1]
    rfl
  · have hCards : (s.clearTable shuffle).deck.length = 52 :=
      shuffle.perm.length_eq
    omega
  · intro p hp
    apply contribute_isSome
    apply contribute_isSome
    simp [(hServed p hp).1]

/- A step that moves nobody keeps the seats in order. -/
theorem Config.Seated.of_players_eq
    {c d : Config}
    (hSeated : c.Seated)
    (hOpen : c.pending ≠ .start)
    (hPlayers : d.session.players = c.session.players)
    (hSome : ∀ p, (c.session.chips.find p).isSome →
      (d.session.chips.find p).isSome)
    (hLeaver : ∀ l ∈ d.pending.leaver?,
      c.session.players[l.removedIndex]? = some l.player ∧
        l.player ∈ d.session.foldedPlayers) :
    d.Seated where
  nodup := by
    rw [hPlayers]
    exact hSeated.nodup
  leaver := by
    rw [hPlayers]
    exact hLeaver
  dealtIn := fun _ => by
    rw [hPlayers]
    rcases hSeated.dealtIn hOpen with ⟨hFew, hStack⟩
    exact ⟨hFew, fun p hp => hSome p (hStack p hp)⟩

/- A cleared seat leaves the others in order. -/
theorem Config.Seated.of_eraseIdx
    {s t : GameSession}
    {leaver : Leaver}
    {pending : Pending}
    (hSeated : Config.Seated
      ⟨s, .resume (.finishRemoval leaver)⟩)
    (hPlayers : t.players =
      s.players.eraseIdx leaver.removedIndex)
    (hChips : t.chips = s.chips.erase leaver.player)
    (hNone : pending.leaver? = none) :
    Config.Seated ⟨t, pending⟩ := by
  rcases hSeated.leaver leaver rfl with ⟨hAt, _⟩
  rcases hSeated.dealtIn (by simp) with ⟨hFew, hStack⟩
  have hNodup := hSeated.nodup
  dsimp only at hAt hFew hStack hNodup
  refine ⟨?_, by simp [hNone], fun _ => ?_⟩
  · dsimp only
    rw [hPlayers]
    exact (List.eraseIdx_sublist _ _).nodup hNodup
  · dsimp only
    rw [hPlayers, hChips]
    refine ⟨?_, fun p hp => ?_⟩
    · exact Nat.le_trans
        (List.eraseIdx_sublist _ _).length_le hFew
    · rcases (GameSession.mem_eraseIdx hNodup hAt).mp hp with
        ⟨hMem, hNe⟩
      rw [KeyMap.find_erase, if_neg hNe]
      exact hStack p hMem

/- Every step keeps the seats in order. -/
theorem Config.Seated.step
    {c d : Config}
    {e : Event}
    (hSeated : c.Seated)
    (hStep : Step c e d) :
    d.Seated := by
  have hLeaver := hSeated.leaver
  cases hStep with
  | @started s dealt posted t shuffle hDealt hPosted hQuiet =>
      rcases hQuiet with ⟨_, _, rfl, _⟩
      rcases GameSession.started_dealtIn hDealt hPosted with
        ⟨hPlayers, _, hFew, hSome⟩
      refine ⟨?_, by simp [Pending.leaver?], fun _ => ?_⟩
      · change posted.players.Nodup
        rw [hPlayers]
        exact hSeated.nodup
      · change posted.players.length ≤ 26 ∧
          ∀ p ∈ posted.players, _
        rw [hPlayers]
        exact ⟨hFew, hSome⟩
  | asked hAt hAct =>
      exact hSeated.of_players_eq (by simp) rfl
        (fun _ h => h) (by simp [Pending.leaver?])
  | passedOver hAt hAct hCloses =>
      exact hSeated.of_players_eq (by simp) rfl
        (fun _ h => h) (by simp [closes_leaver? hCloses])
  | wonByFold hOne =>
      exact hSeated.of_players_eq (by simp) rfl
        (fun _ h => h) (by simp [Pending.leaver?])
  | street hMany hPhase hDeal hQuiet =>
      rcases hQuiet with ⟨_, _, rfl, _⟩
      exact hSeated.of_players_eq (by simp) rfl
        (fun _ h => h) (by simp [Pending.leaver?])
  | riverClosed hMany hPhase =>
      exact hSeated.of_players_eq (by simp) rfl
        (fun _ h => h) (by simp [Pending.leaver?])
  | pastShowdown hMany hPhase =>
      exact hSeated.of_players_eq (by simp) rfl
        (fun _ h => h) (by simp [Pending.leaver?])
  | shownDown hQuiet hPending =>
      rcases hQuiet with ⟨_, _, rfl, _⟩
      refine hSeated.of_players_eq (by simp) rfl
        (fun _ h => h) ?_
      rcases hPending with ⟨_, rfl⟩ | ⟨_, rfl⟩ | ⟨_, rfl⟩
      · simp [Pending.leaver?]
      · simp [Pending.leaver?]
      · simp [Pending.leaver?]
  | singleWinner =>
      exact hSeated.of_players_eq (by simp) rfl
        (fun _ h => h) (by simp [Pending.leaver?])
  | @awardedNothing s next shuffle hEmpty =>
      refine hSeated.of_players_eq (by simp) rfl
        (fun _ h => h) ?_
      cases next with
      | tryStartNewHand => simp [Pending.leaver?]
      | finishRemoval l => exact hLeaver
  | @awarded s t award next shuffle hFull hPaid hQuiet =>
      rcases hSeated.dealtIn (by simp) with ⟨hFew, _⟩
      dsimp only at hFew
      have hNodup : s.players.Nodup := hSeated.nodup
      rcases GameSession.award_pays hNodup (by omega)
          hPaid with
        ⟨gain, hPays, _⟩
      rcases hQuiet with ⟨_, _, rfl, _⟩
      refine hSeated.of_players_eq (by simp)
        hPays.players_eq hPays.isSome ?_
      rcases hPays.frame with ⟨chips, hEq⟩
      dsimp only
      rw [hEq]
      cases next with
      | tryStartNewHand => simp [Pending.leaver?]
      | finishRemoval l => exact hLeaver
  | handOver hEnough hChips =>
      exact hSeated.of_players_eq (by simp) rfl
        (fun _ h => h) (by simp [Pending.leaver?])
  | gameOver hOver =>
      exact hSeated.of_players_eq (by simp) rfl
        (fun _ h => h) (by simp [Pending.leaver?])
  | leftFew hFew hErased =>
      rcases hErased with rfl | rfl
      · exact hSeated.of_eraseIdx
          (GameSession.eraseLeaver_players ..)
          (GameSession.eraseLeaver_chips ..) rfl
      · exact hSeated.of_eraseIdx
          (GameSession.vacate_players ..)
          (GameSession.vacate_chips ..) rfl
  | leftOneActive hEnough hOne =>
      exact hSeated.of_eraseIdx
        (GameSession.vacate_players ..)
        (GameSession.vacate_chips ..) rfl
  | leftClosing hEnough hMany hCloses =>
      exact hSeated.of_eraseIdx
        (GameSession.vacate_players ..)
        (GameSession.vacate_chips ..)
        (closes_leaver? hCloses)
  | leftWaiting hEnough hMany hOther hOpen hQuiet =>
      rcases hQuiet with ⟨_, _, rfl, _⟩
      exact hSeated.of_eraseIdx
        (GameSession.vacate_players ..)
        (GameSession.vacate_chips ..) rfl
  | unmapped hEnough hNone => exact hSeated
  | rejected hEnough hPlayer =>
      exact hSeated.of_players_eq (by simp) rfl
        (fun _ h => h) (by simp [Pending.leaver?])
  | wonByAction hEnough hPlayer hAt hActs hQuiet hOne =>
      rcases hQuiet with ⟨_, _, rfl, _⟩
      exact hSeated.of_players_eq (by simp) hActs.frame.1
        (fun _ h => hActs.isSome h) (by simp [Pending.leaver?])
  | acted hEnough hPlayer hAt hActs hQuiet hMany hCloses =>
      rcases hQuiet with ⟨_, _, rfl, _⟩
      exact hSeated.of_players_eq (by simp) hActs.frame.1
        (fun _ h => hActs.isSome h)
        (by simp [closes_leaver? hCloses])
  | notSeated hEnough hNone => exact hSeated
  | @leaving s l current pending hEnough hPlayer hAt hCurrent
      hWas hPending =>
      refine hSeated.of_players_eq (by simp) rfl
        (fun _ h => h) ?_
      have hFolded :
          l.player ∈ (s.foldLeaver l.player).foldedPlayers :=
        Finset.mem_insert_self ..
      rcases hPending with ⟨_, rfl⟩ | ⟨_, rfl⟩
      · intro k hk
        cases hk
        exact ⟨hAt, hFolded⟩
      · intro k hk
        cases hk
        exact ⟨hAt, hFolded⟩

end Server

end Poker

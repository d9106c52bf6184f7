import AsciiPoker.Server.GameSession.Balances

/-
  The stored balance of a player who leaves.

  It is his stack, which an award on the way does not change,
  and the session does not store his balance again.

  Main declarations:
    * `Config.Gone`, `Config.Gone.step`
    * `Config.Leaving`, `Config.Leaving.run`
    * `Config.leaving_of_removePlayer`
-/

namespace Poker

namespace Server

open Protocol

------------------------------------------------------------
-- Accounts of Nobody
------------------------------------------------------------

/- No player of a session that stores balances has an account. -/
structure Config.Gone
    (c : Config)
    (account : String) : Prop where
  seated : c.Seated
  hasRepository : c.session.hasRepository = true
  nobody : ∀ q ∈ c.session.players,
    c.session.account q ≠ account

section Gone

variable {c d : Config}
variable {e : Event}
variable {account : String}

/- Nobody comes to the table, or gets another name. -/
theorem GameSession.Keeps.nobody
    {s t : GameSession}
    (hKeeps : s.Keeps t)
    (hNobody : ∀ q ∈ s.players, s.account q ≠ account) :
    ∀ q ∈ t.players, t.account q ≠ account := by
  intro q hq
  unfold GameSession.account
  rw [hKeeps.names]
  exact hNobody q (hKeeps.players hq)

/- No step writes to the account of nobody. -/
theorem Config.Gone.writes_nil
    {new : String → List UInt32}
    (hGone : c.Gone account)
    (hStep : Step c e d)
    (hWrites : c.Writes d new) :
    new account = [] := by
  have hNobody := hStep.keeps.nobody hGone.nobody
  rcases c with ⟨s, pending⟩
  cases pending with
  | done => exact congrFun hWrites _
  | askCurrentPlayer => exact congrFun hWrites _
  | nextPhase => exact congrFun hWrites _
  | doShowdown => exact congrFun hWrites _
  | handleSingleWinner => exact congrFun hWrites _
  | start =>
      rw [show new = d.session.stacksFor from hWrites]
      exact GameSession.stacksFor_of_nobody hNobody
  | awardAllPots next =>
      rcases hWrites with rfl | rfl
      · rfl
      · exact GameSession.stacksFor_of_nobody hNobody
  | resume next =>
      cases next with
      | tryStartNewHand => exact congrFun hWrites _
      | finishRemoval leaver =>
          have hLeaver := List.mem_of_getElem?
            (hGone.seated.leaver leaver rfl).1
          have hNew := congrFun hWrites account
          dsimp only at hNew
          rw [hNew]
          unfold GameSession.stackFor
          rw [if_neg (hGone.nobody leaver.player hLeaver)]
          rfl

theorem Config.Gone.step
    (hGone : c.Gone account)
    (hOk : c.step e = .ok d) :
    d.Gone account ∧
      d.session.written account =
        c.session.written account := by
  have hStep := step_of_ok hOk
  have hKeeps := hStep.keeps
  rcases Config.logs_of_ok hGone.hasRepository hOk with
    ⟨new, hWrites, hLogs⟩
  refine ⟨⟨hGone.seated.step hStep,
    hKeeps.hasRepository.trans hGone.hasRepository,
    hKeeps.nobody hGone.nobody⟩, ?_⟩
  rw [hLogs.written, hGone.writes_nil hStep hWrites,
    List.append_nil]

theorem Config.Gone.run
    {trace : List (Config × Event)}
    (hGone : c.Gone account)
    (run : Transition.Run Config.step c trace d) :
    d.Gone account ∧
      d.session.written account =
        c.session.written account := by
  have hKeep : ∀ (f : Config) (e : Event) (g : Config),
      (f.Gone account ∧ f.session.written account =
        c.session.written account) →
      f.step e = .ok g →
      (g.Gone account ∧ g.session.written account =
        c.session.written account) := by
    rintro f e g ⟨hHere, hSame⟩ hOk
    rcases hHere.step hOk with ⟨hNext, hEq⟩
    exact ⟨hNext, hEq.trans hSame⟩
  exact run.invariant_of_step hKeep ⟨hGone, rfl⟩

end Gone

------------------------------------------------------------
-- Players Who Leave
------------------------------------------------------------

/-
  `p` is leaving with a stack, and nobody else at the table
  has his account.
-/
structure Config.Leaving
    (c : Config)
    (p : PlayerId)
    (stack : UInt32) : Prop where
  seated : c.Seated
  hasRepository : c.session.hasRepository = true
  alone : ∀ q ∈ c.session.players,
    c.session.account q = c.session.account p → q = p
  leaver : ∃ leaver ∈ c.pending.leaver?, leaver.player = p
  stack : c.session.chips.find p = some stack

section Leaving

variable {c d : Config}
variable {e : Event}
variable {p : PlayerId}
variable {stack : UInt32}

/- An award gives nothing to a leaver, who has folded. -/
theorem Step.chips_of_leaver
    {s : GameSession}
    {leaver : Leaver}
    (hStep :
      Step ⟨s, .awardAllPots (.finishRemoval leaver)⟩ e d)
    (hSeated : Config.Seated
      ⟨s, .awardAllPots (.finishRemoval leaver)⟩) :
    d.session.chips.get leaver.player =
      s.chips.get leaver.player := by
  rcases hSeated.leaver leaver rfl with ⟨hAt, hFolded⟩
  have hGained := GameSession.gained_le_winnable
    hSeated hStep hAt
  have hNone := GameSession.winnableAt_of_folded hAt hFolded
  unfold GameSession.winnableAt at hNone
  dsimp only at hNone
  rw [hNone, Nat.le_zero] at hGained
  unfold GameSession.gained at hGained
  have hZero : d.session.chips.get leaver.player -
      s.chips.get leaver.player = 0 :=
    UInt32.toNat_inj.mp hGained
  rw [← UInt32.sub_add_cancel
    (d.session.chips.get leaver.player)
    (s.chips.get leaver.player), hZero, UInt32.zero_add]

/- A leaver keeps leaving, or his stack is stored for good. -/
theorem Config.Leaving.step
    (hLeaving : c.Leaving p stack)
    (hOk : c.step e = .ok d) :
    d.session.account = c.session.account ∧
      ∃ new, c.session.Logs d.session new ∧
        (d.Leaving p stack ∨
          (d.Gone (c.session.account p) ∧
            new (c.session.account p) = [stack])) := by
  have hStep := step_of_ok hOk
  have hKeeps := hStep.keeps
  have hSeated := hLeaving.seated.step hStep
  have hHas :=
    hKeeps.hasRepository.trans hLeaving.hasRepository
  have hAccount : d.session.account = c.session.account := by
    unfold GameSession.account
    rw [hKeeps.names]
  rcases Config.logs_of_ok hLeaving.hasRepository hOk with
    ⟨new, hWrites, hLogs⟩
  refine ⟨hAccount, new, hLogs, ?_⟩
  rcases hLeaving.leaver with ⟨leaver, hLeaver, rfl⟩
  have hAlone := hLeaving.alone
  have hStack := hLeaving.stack
  have hThere := hLeaving.seated
  rcases c with ⟨s, pending⟩
  dsimp only at hAlone hStack hKeeps ⊢
  cases pending with
  | awardAllPots next =>
      cases next with
      | tryStartNewHand => cases hLeaver
      | finishRemoval other =>
          cases hLeaver
          left
          have hChips := hStep.chips_of_leaver hThere
          have hNext :
              d.pending = .resume (.finishRemoval leaver) := by
            cases hStep with
            | awardedNothing hEmpty => rfl
            | awarded hFull hPaid hQuiet => rfl
          have hSeat := List.mem_of_getElem?
            (hSeated.leaver leaver
              (by rw [hNext]; rfl)).1
          refine ⟨hSeated, hHas, ?_, ⟨leaver, ?_, rfl⟩, ?_⟩
          · intro q hq hSame
            rw [hAccount] at hSame
            exact hAlone q (hKeeps.players hq) hSame
          · rw [hNext]
            rfl
          · rcases Option.isSome_iff_exists.mp
                ((hSeated.dealtIn (by simp [hNext])).2
                  leaver.player hSeat) with
              ⟨chips, hFind⟩
            unfold KeyMap.get at hChips
            rw [hFind, hStack] at hChips
            rw [hFind]
            exact congrArg some hChips
  | resume next =>
      cases next with
      | tryStartNewHand => cases hLeaver
      | finishRemoval other =>
          cases hLeaver
          right
          have hGone := hStep.not_mem_of_leaver hThere
          have hNew := congrFun hWrites
            (s.account leaver.player)
          dsimp only at hNew
          refine ⟨⟨hSeated, hHas, ?_⟩, ?_⟩
          · intro q hq hSame
            rw [hAccount] at hSame
            have hEq := hAlone q (hKeeps.players hq) hSame
            rw [hEq] at hq
            exact hGone hq
          · rw [hNew]
            unfold GameSession.stackFor
            rw [if_pos rfl, hStack]
            rfl
  | _ => cases hLeaver

/- Once the session rests, the leaver's stack is stored. -/
theorem Config.Leaving.run
    {t : GameSession}
    {trace : List (Config × Event)}
    (hLeaving : c.Leaving p stack)
    (run : Transition.Run Config.step c trace ⟨t, .done⟩) :
    Config.Gone ⟨t, .done⟩ (c.session.account p) ∧
      ∃ new, c.session.Logs t new ∧
        (new (c.session.account p)).getLast? =
          some stack := by
  have hKeep : ∀ (f : Config) (e : Event) (g : Config),
      (f.session.account = c.session.account ∧
        ∃ new, c.session.Logs f.session new ∧
          (f.Leaving p stack ∨
            (f.Gone (c.session.account p) ∧
              (new (c.session.account p)).getLast? =
                some stack))) →
      f.step e = .ok g →
      (g.session.account = c.session.account ∧
        ∃ new, c.session.Logs g.session new ∧
          (g.Leaving p stack ∨
            (g.Gone (c.session.account p) ∧
              (new (c.session.account p)).getLast? =
                some stack))) := by
    rintro f e g ⟨hSame, new, hLogs, hHere⟩ hOk
    rcases hHere with hLeaves | ⟨hGone, hLast⟩
    · rcases hLeaves.step hOk with ⟨hEq, more, hMore, hNext⟩
      rw [hSame] at hEq hNext
      refine ⟨hEq, _, hLogs.trans hMore, ?_⟩
      rcases hNext with hStill | ⟨hGone, hStored⟩
      · exact Or.inl hStill
      · right
        refine ⟨hGone, ?_⟩
        rw [hStored, List.getLast?_concat]
    · have hStep := step_of_ok hOk
      rcases Config.logs_of_ok hGone.hasRepository hOk with
        ⟨more, hWrites, hMore⟩
      refine ⟨?_, _, hLogs.trans hMore,
        Or.inr ⟨(hGone.step hOk).1, ?_⟩⟩
      · unfold GameSession.account
        rw [hStep.keeps.names]
        exact hSame
      · rw [hGone.writes_nil hStep hWrites, List.append_nil]
        exact hLast
  have hStart : c.session.Logs c.session fun _ => [] :=
    GameSession.logs_of_log_eq rfl
  rcases run.invariant_of_step hKeep
      ⟨rfl, _, hStart, Or.inl hLeaving⟩ with
    ⟨_, new, hLogs, hLeaves | ⟨hGone, hLast⟩⟩
  · rcases hLeaves.leaver with ⟨leaver, hLeaver, _⟩
    cases hLeaver
  · exact ⟨hGone, new, hLogs, hLast⟩

/- A removal of a seated player has him leaving. -/
theorem Config.leaving_of_removePlayer
    {s : GameSession}
    {connection : ConnId}
    (hSeated : Config.Seated ⟨s, .done⟩)
    (hRepository : s.hasRepository = true)
    (hPlayer : s.getPlayer connection = some p)
    (hMem : p ∈ s.players)
    (hAlone : ∀ q ∈ s.players,
      s.account q = s.account p → q = p)
    (hOk : Config.step ⟨s, .done⟩ (.removePlayer connection) =
      .ok d) :
    d.Leaving p (s.chips.get p) ∧
      d.session.account = s.account := by
  have hStep := step_of_ok hOk
  have hNext := hSeated.step hStep
  rcases Option.isSome_iff_exists.mp
      ((hSeated.dealtIn (by simp)).2 p hMem) with
    ⟨chips, hChips⟩
  have hFind : s.chips.find p = some chips := hChips
  have hGet : s.chips.get p = chips := by
    simp [KeyMap.get, hFind]
  rw [hGet]
  cases hStep with
  | notSeated hEnough hNone => exact absurd hMem (hNone p hPlayer)
  | @leaving s leaver current pending hEnough hMapped hAt
      hCurrent hWas hPending =>
      have hEq : leaver.player = p := by
        rw [hPlayer] at hMapped
        exact (Option.some.inj hMapped).symm
      refine ⟨⟨hNext, hRepository, hAlone,
        ⟨leaver, ?_, hEq⟩, hFind⟩, rfl⟩
      rcases hPending with ⟨_, rfl⟩ | ⟨_, rfl⟩
      · rfl
      · rfl

end Leaving

end Server

end Poker

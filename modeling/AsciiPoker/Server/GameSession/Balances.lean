import AsciiPoker.Server.GameSession.Saving
import AsciiPoker.Server.GameSession.TableStakes
import AsciiPoker.Server.GameSession.Turns

/-
  The stored balances of the players at a table.

  While a hand is in progress the balance that the session
  stored last for a player is what he has and has put in,
  less the blind he posted.

  Main declarations:
    * `GameSession.OwnAccounts`, `GameSession.saved`
    * `GameSession.blindPosted`, `blindIn`
    * `GameSession.Recorded`, `Config.Tracked`
    * `Table.Run.tracked`
-/

namespace Poker

namespace Server

open Protocol

------------------------------------------------------------
-- Balances
------------------------------------------------------------

namespace GameSession

/- No two players of the session share an account. -/
def OwnAccounts
    (s : GameSession) : Prop :=
  ∀ p ∈ s.players, ∀ q ∈ s.players,
    s.account p = s.account q → p = q

/- The balance that the session stored last. -/
def saved
    (s : GameSession)
    (account : String) : Option UInt32 :=
  (s.written account).getLast?

/- What a player has and has put in. -/
def holding
    (s : GameSession)
    (p : PlayerId) : Nat :=
  (s.chips.get p).toNat + (s.totalContributed.get p).toNat

/- The blind that a player posts in a hand dealt here. -/
def blindPosted
    (s : GameSession)
    (p : PlayerId) : UInt32 :=
  let small :=
    if s.players[s.sbIndex]? = some p then
      min SMALL_BLIND (s.stackOf p)
    else
      0
  let big :=
    if s.players[s.bbIndex]? = some p then
      min BIG_BLIND (s.stackOf p - small)
    else
      0
  small + big

/-
  Of every seated player the session stored what he has and
  has put in, less his blind.
-/
def Recorded
    (s : GameSession)
    (blind : PlayerId → UInt32) : Prop :=
  ∀ p ∈ s.players, s.holding p < 2 ^ 32 ∧
    ∃ balance, s.saved (s.account p) = some balance ∧
      balance.toNat + (blind p).toNat = s.holding p

end GameSession

/- The blind a player posted in the hand that was dealt last. -/
def blindIn
    (trace : List (Config × Event))
    (p : PlayerId) : UInt32 :=
  match (trace.filter
      fun x => decide (x.1.pending = .start)).getLast? with
  | none => 0
  | some x => x.1.session.blindPosted p

theorem blindIn_start
    (trace : List (Config × Event))
    (s : GameSession)
    (e : Event) :
    blindIn (trace ++ [(⟨s, .start⟩, e)]) = s.blindPosted := by
  funext p
  simp [blindIn]

theorem blindIn_of_ne
    (trace : List (Config × Event))
    {c : Config}
    (e : Event)
    (hOpen : c.pending ≠ .start) :
    blindIn (trace ++ [(c, e)]) = blindIn trace := by
  funext p
  simp [blindIn, hOpen]

------------------------------------------------------------
-- What a Step Leaves Alone
------------------------------------------------------------

namespace GameSession

/- Players may be gone; their names are what they were. -/
structure Keeps
    (s t : GameSession) : Prop where
  names : t.names = s.names
  hasRepository : t.hasRepository = s.hasRepository
  players : t.players ⊆ s.players

variable {s t u : GameSession}

theorem Keeps.trans
    (hFirst : s.Keeps t)
    (hSecond : t.Keeps u) :
    s.Keeps u where
  names := hSecond.names.trans hFirst.names
  hasRepository :=
    hSecond.hasRepository.trans hFirst.hasRepository
  players := fun _ h => hFirst.players (hSecond.players h)

theorem Quiet.keeps
    (hQuiet : s.Quiet t) :
    s.Keeps t := by
  rcases hQuiet with ⟨_, _, rfl, _⟩
  exact ⟨rfl, rfl, fun _ h => h⟩

theorem contribute_keeps
    (s : GameSession)
    (player : PlayerId)
    (amount : UInt32) :
    s.Keeps (s.contribute player amount) := by
  rcases s.contribute_eq player amount with ⟨_, hEq⟩
  rw [hEq]
  exact ⟨rfl, rfl, fun _ h => h⟩

theorem Acts.keeps
    {p : PlayerId}
    {action : Action}
    {amount : Option UInt32}
    (hActs : s.Acts p action amount t) :
    s.Keeps t := by
  cases hActs with
  | fold => exact ⟨rfl, rfl, fun _ h => h⟩
  | check => exact ⟨rfl, rfl, fun _ h => h⟩
  | callNothing => exact ⟨rfl, rfl, fun _ h => h⟩
  | call => exact s.contribute_keeps p _
  | raise =>
      exact (s.contribute_keeps p _).trans
        ⟨rfl, rfl, fun _ h => h⟩

theorem vacate_keeps
    (s : GameSession)
    (leaver : Leaver) :
    s.Keeps (s.vacate leaver) := by
  rcases s.vacate_eq leaver with ⟨_, _, hEq, _⟩
  rw [hEq]
  exact ⟨rfl, rfl, (List.eraseIdx_sublist _ _).subset⟩

theorem postBlinds_keeps
    (hPosted : s.postBlinds = .ok t) :
    s.Keeps t := by
  rcases GameSession.blinds_of_ok hPosted with
    ⟨sb, bb, _, _, rfl⟩
  have hBlinds := (s.contribute_keeps sb SMALL_BLIND).trans
    (contribute_keeps _ bb BIG_BLIND)
  exact ⟨hBlinds.names, hBlinds.hasRepository,
    hBlinds.players⟩

theorem Dealt.keeps
    {shuffle : Shuffle}
    (hDealt : s.Dealt shuffle t) :
    s.Keeps t := by
  rcases hDealt.spec with ⟨_, _, _, _, _, rfl, _⟩
  exact ⟨rfl, rfl, fun _ h => h⟩

end GameSession

theorem Step.keeps
    {c d : Config}
    {e : Event}
    (hStep : Step c e d) :
    c.session.Keeps d.session := by
  cases hStep with
  | started hDealt hPosted hQuiet =>
      exact (hDealt.keeps.trans
        (GameSession.postBlinds_keeps hPosted)).trans
        ⟨hQuiet.keeps.names, hQuiet.keeps.hasRepository,
          hQuiet.keeps.players⟩
  | asked hAt hAct => exact ⟨rfl, rfl, fun _ h => h⟩
  | passedOver hAt hAct hCloses =>
      exact ⟨rfl, rfl, fun _ h => h⟩
  | wonByFold hOne => exact ⟨rfl, rfl, fun _ h => h⟩
  | street hMany hPhase hDeal hQuiet =>
      exact ⟨hQuiet.keeps.names, hQuiet.keeps.hasRepository,
        hQuiet.keeps.players⟩
  | riverClosed hMany hPhase => exact ⟨rfl, rfl, fun _ h => h⟩
  | pastShowdown hMany hPhase => exact ⟨rfl, rfl, fun _ h => h⟩
  | shownDown hQuiet hPending =>
      exact ⟨hQuiet.keeps.names, hQuiet.keeps.hasRepository,
        hQuiet.keeps.players⟩
  | singleWinner => exact ⟨rfl, rfl, fun _ h => h⟩
  | awardedNothing hEmpty => exact ⟨rfl, rfl, fun _ h => h⟩
  | awarded hFull hPaid hQuiet =>
      rcases hQuiet with ⟨_, _, rfl, _⟩
      rcases GameSession.payPots_frame hPaid with ⟨_, hEq⟩
      rw [hEq]
      exact ⟨rfl, rfl, fun _ h => h⟩
  | handOver hEnough hChips => exact ⟨rfl, rfl, fun _ h => h⟩
  | gameOver hOver => exact ⟨rfl, rfl, fun _ h => h⟩
  | @leftFew s _ leaver shuffle hFew hErased =>
      have hVacated := s.vacate_keeps leaver
      rcases hErased with rfl | rfl
      · exact ⟨hVacated.names, hVacated.hasRepository,
          hVacated.players⟩
      · exact hVacated
  | leftOneActive hEnough hOne =>
      exact GameSession.vacate_keeps _ _
  | leftClosing hEnough hMany hCloses =>
      exact GameSession.vacate_keeps _ _
  | leftWaiting hEnough hMany hOther hOpen hQuiet =>
      exact (GameSession.vacate_keeps _ _).trans hQuiet.keeps
  | unmapped hEnough hNone => exact ⟨rfl, rfl, fun _ h => h⟩
  | rejected hEnough hPlayer => exact ⟨rfl, rfl, fun _ h => h⟩
  | wonByAction hEnough hPlayer hAt hActs hQuiet hOne =>
      exact hActs.keeps.trans
        ⟨hQuiet.keeps.names, hQuiet.keeps.hasRepository,
          hQuiet.keeps.players⟩
  | acted hEnough hPlayer hAt hActs hQuiet hMany hCloses =>
      exact hActs.keeps.trans
        ⟨hQuiet.keeps.names, hQuiet.keeps.hasRepository,
          hQuiet.keeps.players⟩
  | notSeated hEnough hNone => exact ⟨rfl, rfl, fun _ h => h⟩
  | leaving hEnough hPlayer hAt hCurrent hWas hPending =>
      exact ⟨rfl, rfl, fun _ h => h⟩

/- Own accounts stay own accounts. -/
theorem GameSession.Keeps.ownAccounts
    {s t : GameSession}
    (hKeeps : s.Keeps t)
    (hOwn : s.OwnAccounts) :
    t.OwnAccounts := by
  intro p hp q hq hSame
  unfold GameSession.account at hSame
  rw [hKeeps.names] at hSame
  exact hOwn p (hKeeps.players hp) q (hKeeps.players hq) hSame

/- Names and repository stay over a whole run. -/
theorem Config.run_keeps
    {c d : Config}
    {trace : List (Config × Event)}
    (run : Transition.Run Config.step c trace d) :
    c.session.Keeps d.session := by
  have hKeep : ∀ (f : Config) (e : Event) (g : Config),
      c.session.Keeps f.session → f.step e = .ok g →
      c.session.Keeps g.session :=
    fun _ _ _ hKeeps hOk => hKeeps.trans (step_of_ok hOk).keeps
  exact run.invariant_of_step hKeep ⟨rfl, rfl, fun _ h => h⟩

/- A run only adds to the log. -/
theorem Config.run_logs
    {c d : Config}
    {trace : List (Config × Event)}
    (hRepository : c.session.hasRepository = true)
    (run : Transition.Run Config.step c trace d) :
    ∃ new, c.session.Logs d.session new := by
  have hKeep : ∀ (f : Config) (e : Event) (g : Config),
      (f.session.hasRepository = true ∧
        ∃ new, c.session.Logs f.session new) →
      f.step e = .ok g →
      (g.session.hasRepository = true ∧
        ∃ new, c.session.Logs g.session new) := by
    rintro f e g ⟨hHas, new, hLogs⟩ hOk
    rcases Config.logs_of_ok hHas hOk with ⟨more, _, hMore⟩
    exact ⟨(step_of_ok hOk).keeps.hasRepository.trans hHas,
      _, hLogs.trans hMore⟩
  have hStart : c.session.Logs c.session fun _ => [] :=
    GameSession.logs_of_log_eq rfl
  exact (run.invariant_of_step hKeep
    ⟨hRepository, _, hStart⟩).2

------------------------------------------------------------
-- Hands in Progress
------------------------------------------------------------

/- A pot is settled only when the hand is decided. -/
def Config.Decided
    (c : Config) : Prop :=
  c.pending.settles = true → ¬ c.session.InProgress

theorem Config.Decided.step
    {c d : Config}
    {e : Event}
    (hDecided : c.Decided)
    (hStep : Step c e d) :
    d.Decided := by
  intro hSettles hProgress
  cases hStep with
  | started hDealt hPosted hQuiet => cases hSettles
  | asked hAt hAct => cases hSettles
  | passedOver hAt hAct hCloses =>
      rw [closes_settles hCloses] at hSettles
      cases hSettles
  | wonByFold hOne =>
      have hTwo := hProgress.2
      dsimp only at hTwo
      omega
  | street hMany hPhase hDeal hQuiet => cases hSettles
  | riverClosed hMany hPhase => cases hSettles
  | pastShowdown hMany hPhase => cases hSettles
  | shownDown hQuiet hPending =>
      rcases hQuiet with ⟨_, _, rfl, _⟩
      exact hProgress.1 rfl
  | singleWinner => exact hDecided rfl hProgress
  | awardedNothing hEmpty => cases hSettles
  | awarded hFull hPaid hQuiet => cases hSettles
  | handOver hEnough hChips => cases hSettles
  | gameOver hOver => cases hSettles
  | leftFew hFew hErased => cases hSettles
  | leftOneActive hEnough hOne => cases hSettles
  | leftClosing hEnough hMany hCloses =>
      rw [closes_settles hCloses] at hSettles
      cases hSettles
  | leftWaiting hEnough hMany hOther hOpen hQuiet =>
      cases hSettles
  | unmapped hEnough hNone => cases hSettles
  | rejected hEnough hPlayer => cases hSettles
  | wonByAction hEnough hPlayer hAt hActs hQuiet hOne =>
      have hTwo := hProgress.2
      dsimp only at hTwo
      omega
  | acted hEnough hPlayer hAt hActs hQuiet hMany hCloses =>
      rw [closes_settles hCloses] at hSettles
      cases hSettles
  | notSeated hEnough hNone => cases hSettles
  | leaving hEnough hPlayer hAt hCurrent hWas hPending =>
      rcases hPending with ⟨hOne, _⟩ | ⟨_, rfl⟩
      · have hTwo := hProgress.2
        dsimp only at hTwo
        omega
      · cases hSettles

namespace GameSession

variable {s t : GameSession}
variable {p : PlayerId}

/- Chips in the pot are still counted. -/
theorem contribute_holding
    (s : GameSession)
    (player : PlayerId)
    (amount : UInt32)
    (hFits : s.holding p < 2 ^ 32) :
    (s.contribute player amount).holding p = s.holding p := by
  unfold holding at hFits ⊢
  rw [contribute_chips, contribute_totalContributed,
    KeyMap.get_set, KeyMap.get_set]
  by_cases hEq : p = player
  · subst hEq
    have hEnough := s.actualAmount_le_chips p amount
    have hLe := UInt32.le_iff_toNat_le.mp hEnough
    rw [if_pos rfl, if_pos rfl,
      UInt32.toNat_sub_of_le _ _ hEnough,
      UInt32.toNat_add_of_lt (by omega)]
    omega
  · rw [if_neg hEq, if_neg hEq]

theorem Acts.holding
    {actor : PlayerId}
    {action : Action}
    {amount : Option UInt32}
    (hActs : s.Acts actor action amount t)
    (hFits : s.holding p < 2 ^ 32) :
    t.holding p = s.holding p := by
  cases hActs with
  | fold => rfl
  | check => rfl
  | callNothing => rfl
  | call => exact s.contribute_holding actor _ hFits
  | raise => exact s.contribute_holding actor _ hFits

/- A departure leaves the chips of those who stay. -/
theorem vacate_holding
    {leaver : Leaver}
    (hNe : p ≠ leaver.player) :
    (s.vacate leaver).holding p = s.holding p := by
  unfold GameSession.holding
  rw [vacate_chips, vacate_totalContributed,
    KeyMap.get_erase, KeyMap.get_erase, if_neg hNe, if_neg hNe]

/- No action brings anybody back into the hand. -/
theorem Acts.countActivePlayers_le
    {actor : PlayerId}
    {action : Action}
    {amount : Option UInt32}
    (hActs : s.Acts actor action amount t)
    (hNodup : s.players.Nodup) :
    t.countActivePlayers ≤ s.countActivePlayers := by
  rcases hActs.foldedPlayers_eq with hSame | rfl
  · unfold GameSession.countActivePlayers
    rw [hActs.frame.1, hSame]
  · exact (countActivePlayers_foldLeaver actor hNodup).2

/- Two active players are two players. -/
theorem InProgress.hasEnoughPlayers
    (hProgress : s.InProgress) :
    s.hasEnoughPlayers :=
  Nat.le_trans hProgress.2 List.countP_le_length

end GameSession

/-
  A step that leaves a hand in progress found it so, unless
  it dealt the hand, and moved chips but to the pot.
-/
theorem Step.inProgress
    {c d : Config}
    {e : Event}
    (hStep : Step c e d)
    (hOpen : c.pending ≠ .start)
    (hSeated : c.Seated)
    (hProgress : d.session.InProgress) :
    c.session.InProgress ∧
      (c.pending.isAward = false →
        ∀ p ∈ d.session.players, c.session.holding p < 2 ^ 32 →
          d.session.holding p = c.session.holding p) := by
  have hNodup := hSeated.nodup
  cases hStep with
  | started hDealt hPosted hQuiet => exact absurd rfl hOpen
  | asked hAt hAct => exact ⟨hProgress, fun _ _ _ _ => rfl⟩
  | passedOver hAt hAct hCloses =>
      exact ⟨hProgress, fun _ _ _ _ => rfl⟩
  | wonByFold hOne => exact ⟨hProgress, fun _ _ _ _ => rfl⟩
  | street hMany hPhase hDeal hQuiet =>
      rcases hQuiet with ⟨_, _, rfl, _⟩
      refine ⟨⟨?_, hProgress.2⟩, fun _ _ _ _ => rfl⟩
      simp only [List.mem_cons, Prod.mk.injEq,
        List.not_mem_nil, or_false] at hPhase
      dsimp only
      rcases hPhase with
        ⟨hHere, _⟩ | ⟨hHere, _⟩ | ⟨hHere, _⟩
      · simp [hHere]
      · simp [hHere]
      · simp [hHere]
  | riverClosed hMany hPhase =>
      exact ⟨hProgress, fun _ _ _ _ => rfl⟩
  | pastShowdown hMany hPhase =>
      exact ⟨hProgress, fun _ _ _ _ => rfl⟩
  | shownDown hQuiet hPending =>
      rcases hQuiet with ⟨_, _, rfl, _⟩
      exact absurd rfl hProgress.1
  | singleWinner => exact ⟨hProgress, fun _ _ _ _ => rfl⟩
  | awardedNothing hEmpty =>
      exact ⟨hProgress, fun _ _ _ _ => rfl⟩
  | awarded hFull hPaid hQuiet =>
      rcases hQuiet with ⟨_, _, rfl, _⟩
      rcases GameSession.payPots_frame hPaid with ⟨_, hEq⟩
      rw [hEq] at hProgress
      exact ⟨hProgress, fun hNot => by cases hNot⟩
  | handOver hEnough hChips =>
      exact ⟨hProgress, fun _ _ _ _ => rfl⟩
  | gameOver hOver => exact ⟨hProgress, fun _ _ _ _ => rfl⟩
  | leftFew hFew hErased =>
      exact absurd hProgress.hasEnoughPlayers hFew
  | leftOneActive hEnough hOne =>
      have hTwo := hProgress.2
      dsimp only at hTwo
      omega
  | @leftClosing s leaver pending shuffle hEnough hMany
      hCloses =>
      rcases hSeated.leaver leaver rfl with ⟨hAt, hFolded⟩
      refine ⟨⟨?_, ?_⟩, fun _ p hp _ => ?_⟩
      · have hPhase := hProgress.1
        rw [GameSession.vacate_phase] at hPhase
        exact hPhase
      · have hTwo := hProgress.2
        rw [GameSession.countActivePlayers_vacate hNodup hAt
          hFolded] at hTwo
        exact hTwo
      · rw [GameSession.vacate_players] at hp
        exact GameSession.vacate_holding
          ((GameSession.mem_eraseIdx hNodup hAt).mp hp).2
  | @leftWaiting s t leaver shuffle hEnough hMany hOther hOpen
      hQuiet =>
      rcases hSeated.leaver leaver rfl with ⟨hAt, hFolded⟩
      rcases hQuiet with ⟨_, _, rfl, _⟩
      refine ⟨⟨?_, ?_⟩, fun _ p hp _ => ?_⟩
      · have hPhase := hProgress.1
        dsimp only at hPhase
        rw [GameSession.vacate_phase] at hPhase
        exact hPhase
      · have hTwo : 2 ≤ (s.vacate leaver).countActivePlayers :=
          hProgress.2
        rw [GameSession.countActivePlayers_vacate hNodup hAt
          hFolded] at hTwo
        exact hTwo
      · have hLeft : p ∈ (s.vacate leaver).players := hp
        rw [GameSession.vacate_players] at hLeft
        exact GameSession.vacate_holding
          ((GameSession.mem_eraseIdx hNodup hAt).mp hLeft).2
  | unmapped hEnough hNone =>
      exact ⟨hProgress, fun _ _ _ _ => rfl⟩
  | rejected hEnough hPlayer =>
      exact ⟨hProgress, fun _ _ _ _ => rfl⟩
  | wonByAction hEnough hPlayer hAt hActs hQuiet hOne =>
      have hTwo := hProgress.2
      dsimp only at hTwo
      omega
  | @acted s t u actor pending connection action amount hEnough
      hPlayer hAt hActs hQuiet hMany hCloses =>
      have hCount := hActs.countActivePlayers_le hNodup
      rcases hQuiet with ⟨_, _, rfl, _⟩
      refine ⟨⟨?_, ?_⟩, fun _ p _ hFits => ?_⟩
      · have hPhase : t.phase ≠ .showdown := hProgress.1
        rw [hActs.frame.2.2.1] at hPhase
        exact hPhase
      · have hTwo : 2 ≤ t.countActivePlayers := hProgress.2
        dsimp only
        omega
      · exact hActs.holding hFits
  | notSeated hEnough hNone =>
      exact ⟨hProgress, fun _ _ _ _ => rfl⟩
  | @leaving s leaver current pending hEnough hPlayer hAt
      hCurrent hWas hPending =>
      have hCount := GameSession.countActivePlayers_foldLeaver
        leaver.player hNodup
      refine ⟨⟨hProgress.1, ?_⟩, fun _ _ _ _ => rfl⟩
      have hTwo := hProgress.2
      dsimp only at hTwo hCount ⊢
      omega

------------------------------------------------------------
-- The Deal
------------------------------------------------------------

namespace GameSession

variable {s dealt posted : GameSession}
variable {shuffle : Shuffle}
variable {p : PlayerId}

/- Whoever is dealt in has put in nothing yet. -/
theorem Dealt.holding
    (hDealt : s.Dealt shuffle dealt)
    (hSeated : p ∈ s.players) :
    dealt.chips.find p = some (s.stackOf p) ∧
      dealt.totalContributed.get p = 0 := by
  rcases hDealt.spec with
    ⟨_, _, _, _, _, rfl, _, _, hTotal, hServed⟩
  exact ⟨(hServed p hSeated).1, hTotal p⟩

/- After the blinds a player has put in his blind. -/
theorem Dealt.blindPosted
    (hDealt : s.Dealt shuffle dealt)
    (hPosted : dealt.postBlinds = .ok posted)
    (hSeated : p ∈ s.players) :
    posted.totalContributed.get p = s.blindPosted p := by
  rcases hDealt.holding hSeated with ⟨hChips, hTotal⟩
  have hStack : dealt.chips.get p = s.stackOf p := by
    simp [KeyMap.get, hChips]
  have hSeats : dealt.players[dealt.sbIndex]? =
        s.players[s.sbIndex]? ∧
      dealt.players[dealt.bbIndex]? =
        s.players[s.bbIndex]? := by
    rcases hDealt.spec with ⟨_, _, _, _, _, rfl, _⟩
    exact ⟨rfl, rfl⟩
  rcases blinds_of_ok hPosted with ⟨sb, bb, hSb, hBb, rfl⟩
  rw [hSeats.1] at hSb
  rw [hSeats.2] at hBb
  unfold GameSession.blindPosted
  rw [hSb, hBb]
  simp only [contribute_totalContributed, contribute_chips,
    KeyMap.get_set, actualAmount, Option.some.injEq]
  by_cases hSmall : p = sb
  · by_cases hBig : p = bb
    · subst hSmall
      subst hBig
      simp [hTotal, hStack]
    · subst hSmall
      simp [hBig, Ne.symm hBig, hTotal, hStack]
  · by_cases hBig : p = bb
    · subst hBig
      simp [hSmall, Ne.symm hSmall, hTotal, hStack]
    · simp [hSmall, hBig, Ne.symm hSmall, Ne.symm hBig, hTotal]

/- The deal turns a stack into chips and a blind. -/
theorem Dealt.posted_holding
    (hDealt : s.Dealt shuffle dealt)
    (hPosted : dealt.postBlinds = .ok posted)
    (hSeated : p ∈ s.players) :
    posted.holding p = (s.stackOf p).toNat := by
  rcases hDealt.holding hSeated with ⟨hChips, hTotal⟩
  have hStack : dealt.chips.get p = s.stackOf p := by
    simp [KeyMap.get, hChips]
  have hHolding : dealt.holding p = (s.stackOf p).toNat := by
    unfold GameSession.holding
    rw [hStack, hTotal]
    rfl
  have hFits : dealt.holding p < 2 ^ 32 := by
    rw [hHolding]
    exact (s.stackOf p).toNat_lt
  rcases blinds_of_ok hPosted with ⟨sb, bb, _, _, rfl⟩
  have hSmall := dealt.contribute_holding sb SMALL_BLIND hFits
  have hBig := (dealt.contribute sb SMALL_BLIND).contribute_holding
    bb BIG_BLIND (hSmall ▸ hFits)
  exact hBig.trans (hSmall.trans hHolding)

end GameSession

------------------------------------------------------------
-- What Is Stored
------------------------------------------------------------

namespace GameSession

variable {s t : GameSession}
variable {new : String → List UInt32}
variable {p : PlayerId}
variable {account : String}

theorem Logs.saved
    (hLogs : s.Logs t new)
    (account : String) :
    t.saved account =
      (new account).getLast?.or (s.saved account) := by
  unfold GameSession.saved
  rw [hLogs.written, List.getLast?_append]

/- Nothing is stored where no player has his account. -/
theorem stacksFor_of_nobody
    (hNobody : ∀ q ∈ s.players, s.account q ≠ account) :
    s.stacksFor account = [] := by
  unfold stacksFor
  rw [List.filterMap_eq_nil_iff]
  intro q hq
  unfold stackFor
  rw [if_neg (hNobody q hq)]

/- Whose account nobody shares has his stack stored. -/
theorem stacksFor_of_own
    {chips : UInt32}
    (hOwn : s.OwnAccounts)
    (hNodup : s.players.Nodup)
    (hSeated : p ∈ s.players)
    (hChips : s.chips.find p = some chips) :
    s.stacksFor (s.account p) = [chips] := by
  rcases List.append_of_mem hSeated with
    ⟨before, after, hSplit⟩
  have hOthers : ∀ q ∈ before ++ after,
      s.stackFor (s.account p) q = none := by
    intro q hq
    have hMem : q ∈ s.players := by
      rw [hSplit]
      rcases List.mem_append.mp hq with hBefore | hAfter
      · exact List.mem_append_left _ hBefore
      · exact List.mem_append_right _
          (List.mem_cons_of_mem _ hAfter)
    have hNe : q ≠ p := by
      rw [hSplit, List.nodup_middle, List.nodup_cons]
        at hNodup
      rintro rfl
      exact hNodup.1 hq
    unfold stackFor
    rw [if_neg fun hSame => hNe (hOwn q hMem p hSeated hSame)]
  have hHere : s.stackFor (s.account p) p = some chips := by
    unfold stackFor
    rw [if_pos rfl, hChips]
  have hBefore : before.filterMap
      (s.stackFor (s.account p)) = [] :=
    List.filterMap_eq_nil_iff.mpr fun q hq =>
      hOthers q (List.mem_append_left _ hq)
  have hAfter : after.filterMap
      (s.stackFor (s.account p)) = [] :=
    List.filterMap_eq_nil_iff.mpr fun q hq =>
      hOthers q (List.mem_append_right _ hq)
  unfold stacksFor
  rw [hSplit, List.filterMap_append, List.filterMap_cons,
    hHere, hBefore, hAfter]
  rfl

end GameSession

/- Whoever leaves is gone after the removal. -/
theorem Step.not_mem_of_leaver
    {s : GameSession}
    {leaver : Leaver}
    {e : Event}
    {d : Config}
    (hStep : Step ⟨s, .resume (.finishRemoval leaver)⟩ e d)
    (hSeated :
      Config.Seated ⟨s, .resume (.finishRemoval leaver)⟩) :
    leaver.player ∉ d.session.players := by
  have hAt := (hSeated.leaver leaver rfl).1
  have hNodup := hSeated.nodup
  suffices hErased : d.session.players =
      s.players.eraseIdx leaver.removedIndex by
    rw [hErased, GameSession.mem_eraseIdx hNodup hAt]
    exact fun h => h.2 rfl
  cases hStep with
  | leftFew hFew hErased =>
      rcases hErased with rfl | rfl
      · exact GameSession.eraseLeaver_players ..
      · exact GameSession.vacate_players ..
  | leftOneActive hEnough hOne =>
      exact GameSession.vacate_players ..
  | leftClosing hEnough hMany hCloses =>
      exact GameSession.vacate_players ..
  | leftWaiting hEnough hMany hOther hOpen hQuiet =>
      rcases hQuiet with ⟨_, _, rfl, _⟩
      exact GameSession.vacate_players ..

/-
  Of those who are seated after it, a step that settles
  nothing stores a balance only if it dealt a hand.
-/
theorem Config.Writes.eq_nil
    {c d : Config}
    {e : Event}
    {new : String → List UInt32}
    {p : PlayerId}
    (hWrites : c.Writes d new)
    (hStep : Step c e d)
    (hSeated : c.Seated)
    (hOwn : c.session.OwnAccounts)
    (hOpen : c.pending ≠ .start)
    (hAward : c.pending.isAward = false)
    (hMem : p ∈ d.session.players) :
    new (c.session.account p) = [] := by
  rcases c with ⟨s, pending⟩
  cases pending with
  | start => exact absurd rfl hOpen
  | awardAllPots next => cases hAward
  | done => exact congrFun hWrites _
  | askCurrentPlayer => exact congrFun hWrites _
  | nextPhase => exact congrFun hWrites _
  | doShowdown => exact congrFun hWrites _
  | handleSingleWinner => exact congrFun hWrites _
  | resume next =>
      cases next with
      | tryStartNewHand => exact congrFun hWrites _
      | finishRemoval leaver =>
          have hGone := hStep.not_mem_of_leaver hSeated
          have hLeaver := List.mem_of_getElem?
            (hSeated.leaver leaver rfl).1
          have hOther : s.account leaver.player ≠
              s.account p := by
            intro hSame
            have hEq := hOwn leaver.player hLeaver p
              (hStep.keeps.players hMem) hSame
            rw [hEq] at hGone
            exact hGone hMem
          have hNew := congrFun hWrites (s.account p)
          dsimp only at hNew ⊢
          rw [hNew]
          unfold GameSession.stackFor
          rw [if_neg hOther]
          rfl

------------------------------------------------------------
-- Runs
------------------------------------------------------------

/-
  What holds of a session that stores balances for players
  with accounts of their own.
-/
structure Config.Tracked
    (c : Config)
    (blind : PlayerId → UInt32) : Prop where
  seated : c.Seated
  decided : c.Decided
  hasRepository : c.session.hasRepository = true
  ownAccounts : c.session.OwnAccounts
  saved : c.pending ≠ .start → ∀ p ∈ c.session.players,
    (c.session.saved (c.session.account p)).isSome
  recorded : c.pending ≠ .start → c.session.InProgress →
    c.session.Recorded blind

section Tracked

variable {c d : Config}
variable {e : Event}
variable {blind : PlayerId → UInt32}

/- The deal stores of everybody what is left after his blind. -/
theorem Config.Tracked.started
    {s : GameSession}
    (hTracked : Config.Tracked ⟨s, .start⟩ blind)
    (hOk : Config.step ⟨s, .start⟩ e = .ok d)
    {p : PlayerId}
    (hMem : p ∈ d.session.players) :
    d.session.holding p < 2 ^ 32 ∧
      ∃ balance,
        d.session.saved (d.session.account p) =
          some balance ∧
        balance.toNat + (s.blindPosted p).toNat =
          d.session.holding p := by
  have hStep := step_of_ok hOk
  have hSeated := hTracked.seated.step hStep
  have hKeeps := hStep.keeps
  rcases Config.logs_of_ok hTracked.hasRepository hOk with
    ⟨new, rfl, hLogs⟩
  cases hStep with
  | @started s dealt posted t shuffle hDealt hPosted hQuiet =>
      rcases Option.isSome_iff_exists.mp
          ((hSeated.dealtIn (by simp)).2 p hMem) with
        ⟨chips, hChips⟩
      have hHolding : t.holding p = (s.stackOf p).toNat := by
        rw [← hDealt.posted_holding hPosted
          (hKeeps.players hMem)]
        rcases hQuiet with ⟨_, _, rfl, _⟩
        rfl
      have hBlind : t.totalContributed.get p =
          s.blindPosted p := by
        rw [← hDealt.blindPosted hPosted
          (hKeeps.players hMem)]
        rcases hQuiet with ⟨_, _, rfl, _⟩
        rfl
      have hGet : t.chips.get p = chips := by
        have hFind : t.chips.find p = some chips := hChips
        simp [KeyMap.get, hFind]
      refine ⟨?_, chips, ?_, ?_⟩
      · rw [hHolding]
        exact (s.stackOf p).toNat_lt
      · rw [hLogs.saved, GameSession.stacksFor_of_own
          (hKeeps.ownAccounts hTracked.ownAccounts)
          hSeated.nodup hMem hChips]
        rfl
      · rw [← hBlind, ← hGet]
        rfl

/- Every step keeps the balances tracked. -/
theorem Config.Tracked.step
    {trace : List (Config × Event)}
    (hTracked : c.Tracked (blindIn trace))
    (hOk : c.step e = .ok d) :
    d.Tracked (blindIn (trace ++ [(c, e)])) := by
  have hStep := step_of_ok hOk
  have hKeeps := hStep.keeps
  have hSeated := hTracked.seated
  have hOwn := hTracked.ownAccounts
  have hAccount : d.session.account = c.session.account := by
    unfold GameSession.account
    rw [hKeeps.names]
  rcases c with ⟨s, pending⟩
  refine ⟨hSeated.step hStep, hTracked.decided.step hStep,
    hKeeps.hasRepository.trans hTracked.hasRepository,
    hKeeps.ownAccounts hOwn, fun _ p hp => ?_,
    fun _ hProgress p hp => ?_⟩
  · by_cases hStart : pending = .start
    · subst hStart
      rcases hTracked.started hOk hp with
        ⟨_, balance, hSaved, _⟩
      simp [hSaved]
    · rcases Config.logs_of_ok hTracked.hasRepository hOk with
        ⟨new, _, hLogs⟩
      have hBefore := hTracked.saved hStart p
        (hKeeps.players hp)
      rw [hLogs.saved, hAccount, Option.isSome_or]
      simp [hBefore]
  · by_cases hStart : pending = .start
    · subst hStart
      rw [blindIn_start]
      exact hTracked.started hOk hp
    · rw [blindIn_of_ne trace e hStart]
      rcases hStep.inProgress hStart hSeated hProgress with
        ⟨hHere, hHolding⟩
      -- The hand goes on, so nothing was settled.
      have hAward : pending.isAward = false := by
        cases pending with
        | awardAllPots next =>
            exact absurd hHere (hTracked.decided rfl)
        | _ => rfl
      rcases hTracked.recorded hStart hHere p
          (hKeeps.players hp) with
        ⟨hFits, balance, hSaved, hBalance⟩
      rcases Config.logs_of_ok hTracked.hasRepository hOk with
        ⟨new, hWrites, hLogs⟩
      have hNone := hWrites.eq_nil hStep hSeated hOwn hStart
        hAward hp
      rw [hHolding hAward p hp hFits]
      refine ⟨hFits, balance, ?_, hBalance⟩
      rw [hLogs.saved, hAccount, hNone]
      exact hSaved

end Tracked

/- A new session at a table of players with own accounts. -/
theorem Table.opening_tracked
    (table : Table)
    (hRepository : table.hasRepository = true)
    (hOwn : table.create.OwnAccounts)
    (blind : PlayerId → UInt32) :
    table.opening.Tracked blind where
  seated := table.opening_seated
  decided := fun h => by cases h
  hasRepository := hRepository
  ownAccounts := hOwn
  saved := fun h => absurd rfl h
  recorded := fun h => absurd rfl h

theorem Table.Run.tracked
    {table : Table}
    {trace : List (Config × Event)}
    {c : Config}
    (run : table.Run trace c)
    (hRepository : table.hasRepository = true)
    (hOwn : table.create.OwnAccounts) :
    c.Tracked (blindIn trace) := by
  have hKeep : ∀ (trace : List (Config × Event)) (c : Config)
      (e : Event) (d : Config),
      c.Tracked (blindIn trace) → c.step e = .ok d →
      d.Tracked (blindIn (trace ++ [(c, e)])) :=
    fun _ _ _ _ hTracked hOk => hTracked.step hOk
  exact Transition.Run.invariant_of_history hKeep run
    (table.opening_tracked hRepository hOwn _)

end Server

end Poker

import AsciiPoker.Library.Sums
import AsciiPoker.Server.GameSession.Balances
import AsciiPoker.Server.GameSession.Conservation
import AsciiPoker.Server.GameSession.FoldWin

/-
  The stored balances of a table, and the chips behind them.

  In a hand a balance is more than the stack: what a player
  has put in is still stored as his, though the pot may go to
  others.  Against this stand two facts.  No stack is larger
  than the balance stored for it, and each time stacks grow
  all of them are stored.

  Main declarations:
    * `GameSession.stored`, `GameSession.storedAway`
    * `Config.Backed`, `Config.Backed.step`,
      `Config.Backed.run`
-/

namespace Poker

namespace Server

open Protocol

------------------------------------------------------------
-- Awards
------------------------------------------------------------

namespace GameSession

variable {s t : GameSession}

/- Whoever is paid a share is named a winner. -/
theorem payWinner_names
    {award paid : Award}
    {share : UInt32}
    {winner : PlayerId}
    (hOk : payWinner share award winner = .ok paid) :
    paid.winnerNames ≠ [] := by
  unfold payWinner at hOk
  dsimp only at hOk
  split at hOk
  next hKnown =>
    cases hOk
    exact List.ne_nil_of_mem hKnown
  next hNew =>
    rcases Except.bind_eq_ok.mp hOk with ⟨label, _, hEnd⟩
    cases hEnd
    simp

/- While no winner is named, no chips were paid. -/
theorem payPot_saves
    {award paid : Award}
    {pot : SidePot}
    (hOk : payPot award pot = .ok paid)
    (hBefore : award.winnerNames = [] →
      award.session.chips = s.chips) :
    paid.winnerNames = [] → paid.session.chips = s.chips := by
  unfold payPot at hOk
  rcases Except.bind_eq_ok.mp hOk with ⟨contenders, _, hRest⟩
  rcases Except.bind_eq_ok.mp hRest with ⟨winners, _, hPaid⟩
  cases winners with
  | nil =>
      cases hPaid
      exact hBefore
  | cons front rest =>
      dsimp only at hPaid
      split at hPaid
      · cases hPaid
        exact hBefore
      · rcases Except.bind_eq_ok.mp hPaid with
          ⟨each, hEach, hEnd⟩
        rw [List.foldlM_cons, Except.bind_eq_ok] at hEach
        rcases hEach with ⟨first, hFirst, hOthers⟩
        have hKeep : ∀ share, ∀ winner ∈ rest,
            ∀ u v : Award, u.winnerNames ≠ [] →
            payWinner share u winner = .ok v →
            v.winnerNames ≠ [] :=
          fun _ _ _ _ _ _ hOne => payWinner_names hOne
        have hNamed := List.foldlM_invariant (hKeep _) hOthers
          (payWinner_names hFirst)
        cases hEnd
        exact fun hNone => absurd hNone hNamed

/- An award is made known with all stacks, or not at all. -/
theorem announceAward_saves
    {award : Award}
    (hRepository : award.session.hasRepository = true)
    (hOk : announceAward award = .ok t) :
    t.players = award.session.players ∧
      ((award.winnerNames = [] ∧ t = award.session) ∨
        award.session.Logs t t.stacksFor) := by
  unfold announceAward at hOk
  split at hOk
  · rcases Except.bind_eq_ok.mp hOk with ⟨sent, hSent, hEnd⟩
    cases hEnd
    have hQuiet := (persistAllChips_quiet award.session).trans
      (broadcastState_quiet hSent)
    have hStacks : sent.stacksFor =
        award.session.stacksFor := by
      rcases hQuiet with ⟨_, _, hEq, _⟩
      rw [hEq]
      rfl
    have hLogs := ((persistAllChips_logs hRepository).trans
      (broadcastState_logs hSent)).trans
        (sent.sendAll_logs fun _ => .handResult
          ⟨award.winnerNames, award.totalAwarded,
            award.winnerHandLabels⟩)
    rw [← hStacks] at hLogs
    simp only [List.append_nil] at hLogs
    refine ⟨?_, Or.inr (hLogs.congr rfl rfl)⟩
    change sent.players = award.session.players
    rcases hQuiet with ⟨_, _, hEq, _⟩
    rw [hEq]
  next hNone =>
    cases hOk
    exact ⟨rfl, Or.inl ⟨not_not.mp hNone, rfl⟩⟩

/- An award that stores no stacks has changed none. -/
theorem awardAllPots_saves
    (hRepository : s.hasRepository = true)
    (hOk : s.awardAllPots = .ok t) :
    t.players = s.players ∧
      ((t.chips = s.chips ∧ s.Logs t fun _ => []) ∨
        s.Logs t t.stacksFor) := by
  unfold awardAllPots at hOk
  split at hOk
  · cases hOk
    exact ⟨rfl, Or.inl ⟨rfl, logs_of_log_eq rfl⟩⟩
  · rcases Except.bind_eq_ok.mp hOk with ⟨award, hPaid, hRest⟩
    rcases Except.bind_eq_ok.mp hRest with ⟨told, hTold, hEnd⟩
    cases hEnd
    rcases payPots_frame hPaid with ⟨chips, hFrame⟩
    have hHas : award.session.hasRepository = true := by
      rw [hFrame]
      exact hRepository
    have hKeep : ∀ pot ∈ computeSidePots s.potPlayerStates,
        ∀ u v : Award,
        (u.winnerNames = [] → u.session.chips = s.chips) →
        payPot u pot = .ok v →
        (v.winnerNames = [] → v.session.chips = s.chips) :=
      fun _ _ _ _ hHere hOne => payPot_saves hOne hHere
    have hUnpaid := List.foldlM_invariant hKeep hPaid
      fun _ => rfl
    rcases announceAward_saves hHas hTold with
      ⟨hPlayers, ⟨hNone, rfl⟩ | hLogs⟩
    · refine ⟨by rw [hFrame], Or.inl ⟨hUnpaid hNone, ?_⟩⟩
      exact logs_of_log_eq (by rw [hFrame])
    · refine ⟨by rw [hPlayers, hFrame], Or.inr ?_⟩
      exact hLogs.congr (by rw [hFrame]) rfl

end GameSession

------------------------------------------------------------
-- What Is Stored
------------------------------------------------------------

namespace GameSession

/- The balance stored last of a player, or 0. -/
def storedOf
    (s : GameSession)
    (p : PlayerId) : Nat :=
  ((s.saved (s.account p)).getD 0).toNat

/- What is stored of some players together. -/
def stored
    (s : GameSession)
    (ps : List PlayerId) : Nat :=
  (ps.map s.storedOf).sum

/- What is stored of those of them who sit here no more. -/
def storedAway
    (s : GameSession)
    (ps : List PlayerId) : Nat :=
  (ps.map fun p =>
    if p ∈ s.players then 0 else s.storedOf p).sum

variable {s t : GameSession}
variable {new : String → List UInt32}
variable {everybody : List PlayerId}
variable {p : PlayerId}

/- What a step stores of a player, or what was stored. -/
theorem Logs.storedOf
    (hLogs : s.Logs t new)
    (hNames : t.names = s.names) :
    t.storedOf p =
      ((new (s.account p)).getLast?.map UInt32.toNat).getD
        (s.storedOf p) := by
  unfold GameSession.storedOf
  rw [hLogs.saved]
  unfold GameSession.account
  rw [hNames]
  cases (new (noCase (s.names p))).getLast? with
  | none => simp
  | some chips => simp

/- Those who are seated, and those who are gone. -/
theorem stored_eq
    (hNodup : s.players.Nodup)
    (hEverybody : everybody.Nodup)
    (hAmong : s.players ⊆ everybody) :
    s.stored everybody =
      s.stored s.players + s.storedAway everybody :=
  List.sum_map_split hEverybody hNodup hAmong _

/- With nobody gone, nothing is stored of those gone. -/
theorem storedAway_self
    (s : GameSession) :
    s.storedAway s.players = 0 := by
  unfold storedAway
  rw [List.sum_eq_zero_iff, List.forall_mem_map]
  intro p hp
  rw [if_pos hp]

end GameSession

/-
  A step that neither deals, settles nor ends a removal
  gives chips to nobody.
-/
theorem Step.chips_le
    {c d : Config}
    {e : Event}
    (hStep : Step c e d)
    (hOpen : c.pending ≠ .start)
    (hAward : c.pending.isAward = false)
    (hStays : ∀ leaver,
      c.pending ≠ .resume (.finishRemoval leaver)) :
    d.session.players = c.session.players ∧
      ∀ p, (d.session.chips.get p).toNat ≤
        (c.session.chips.get p).toNat := by
  have hActs : ∀ {s t u : GameSession} {p : PlayerId}
      {action : Action} {amount : Option UInt32},
      s.Acts p action amount t →
      (t.recordPlayerAction p action).Quiet u →
      u.players = s.players ∧
        ∀ q, (u.chips.get q).toNat ≤
          (s.chips.get q).toNat := by
    intro s t u p action amount hActs hQuiet
    rcases hQuiet with ⟨_, _, rfl, _⟩
    refine ⟨hActs.frame.1, fun q => ?_⟩
    have hPaid : ∀ paid : UInt32,
        (((s.contribute p paid).chips).get q).toNat ≤
          (s.chips.get q).toNat := by
      intro paid
      rw [GameSession.contribute_chips, KeyMap.get_set]
      split
      next hSame =>
        subst hSame
        rw [UInt32.toNat_sub_of_le _ _
          (s.actualAmount_le_chips q paid)]
        omega
      next => exact Nat.le_refl _
    cases hActs with
    | fold => exact Nat.le_refl _
    | check => exact Nat.le_refl _
    | callNothing => exact Nat.le_refl _
    | call => exact hPaid _
    | raise => exact hPaid _
  cases hStep with
  | started hDealt hPosted hQuiet => exact absurd rfl hOpen
  | asked hAt hAct => exact ⟨rfl, fun _ => Nat.le_refl _⟩
  | passedOver hAt hAct hCloses =>
      exact ⟨rfl, fun _ => Nat.le_refl _⟩
  | wonByFold hOne => exact ⟨rfl, fun _ => Nat.le_refl _⟩
  | street hMany hPhase hDeal hQuiet =>
      rcases hQuiet with ⟨_, _, rfl, _⟩
      exact ⟨rfl, fun _ => Nat.le_refl _⟩
  | riverClosed hMany hPhase =>
      exact ⟨rfl, fun _ => Nat.le_refl _⟩
  | pastShowdown hMany hPhase =>
      exact ⟨rfl, fun _ => Nat.le_refl _⟩
  | shownDown hQuiet hPending =>
      rcases hQuiet with ⟨_, _, rfl, _⟩
      exact ⟨rfl, fun _ => Nat.le_refl _⟩
  | singleWinner => exact ⟨rfl, fun _ => Nat.le_refl _⟩
  | awardedNothing hEmpty => cases hAward
  | awarded hFull hPaid hQuiet => cases hAward
  | handOver hEnough hChips =>
      exact ⟨rfl, fun _ => Nat.le_refl _⟩
  | gameOver hOver => exact ⟨rfl, fun _ => Nat.le_refl _⟩
  | leftFew hFew hErased => exact absurd rfl (hStays _)
  | leftOneActive hEnough hOne => exact absurd rfl (hStays _)
  | leftClosing hEnough hMany hCloses =>
      exact absurd rfl (hStays _)
  | leftWaiting hEnough hMany hOther hOpen hQuiet =>
      exact absurd rfl (hStays _)
  | unmapped hEnough hNone =>
      exact ⟨rfl, fun _ => Nat.le_refl _⟩
  | rejected hEnough hPlayer =>
      exact ⟨rfl, fun _ => Nat.le_refl _⟩
  | wonByAction hEnough hPlayer hAt hActed hQuiet hOne =>
      exact hActs hActed hQuiet
  | acted hEnough hPlayer hAt hActed hQuiet hMany hCloses =>
      have hMoved := hActs hActed hQuiet
      exact hMoved
  | notSeated hEnough hNone =>
      exact ⟨rfl, fun _ => Nat.le_refl _⟩
  | leaving hEnough hPlayer hAt hCurrent hWas hPending =>
      exact ⟨rfl, fun _ => Nat.le_refl _⟩

------------------------------------------------------------
-- Funds
------------------------------------------------------------

/-
  Of `everybody` who sat down here, the stored balances are
  backed by `funds`, and so are the chips at the table with
  what is stored of those who left.
-/
structure Config.Backed
    (c : Config)
    (everybody : List PlayerId)
    (funds : Nat) : Prop where
  accounted : c.Accounted
  hasRepository : c.session.hasRepository = true
  nodup : everybody.Nodup
  ownAccounts : ∀ p ∈ everybody, ∀ q ∈ everybody,
    c.session.account p = c.session.account q → p = q
  among : c.session.players ⊆ everybody
  atTable : c.session.worth +
    c.session.storedAway everybody ≤ funds
  onFile : c.pending ≠ .start →
    c.session.stored everybody ≤ funds
  covered : c.pending ≠ .start → ∀ p ∈ c.session.players,
    (c.session.chips.get p).toNat ≤ c.session.storedOf p

section Backed

variable {c d : Config}
variable {e : Event}
variable {everybody : List PlayerId}
variable {funds : Nat}
variable {new : String → List UInt32}

/- What is to be shown of a step, the rest being kept. -/
theorem Config.Backed.next
    (hBacked : c.Backed everybody funds)
    (hOk : c.step e = .ok d)
    (hTable : d.session.worth +
      d.session.storedAway everybody ≤ funds)
    (hFile : d.pending ≠ .start →
      d.session.stored everybody ≤ funds)
    (hCovered : d.pending ≠ .start →
      ∀ p ∈ d.session.players,
        (d.session.chips.get p).toNat ≤
          d.session.storedOf p) :
    d.Backed everybody funds := by
  have hKeeps := (step_of_ok hOk).keeps
  have hAccount : d.session.account = c.session.account := by
    unfold GameSession.account
    rw [hKeeps.names]
  refine ⟨hBacked.accounted.next hOk,
    hKeeps.hasRepository.trans hBacked.hasRepository,
    hBacked.nodup, ?_,
    fun _ hp => hBacked.among (hKeeps.players hp),
    hTable, hFile, hCovered⟩
  rw [hAccount]
  exact hBacked.ownAccounts

/- Whoever is gone is not stored with those who are seated. -/
theorem Config.Backed.storedOf_gone
    {p : PlayerId}
    (hBacked : c.Backed everybody funds)
    (hKeeps : c.session.Keeps d.session)
    (hLogs : c.session.Logs d.session d.session.stacksFor)
    (hMem : p ∈ everybody)
    (hGone : p ∉ d.session.players) :
    d.session.storedOf p = c.session.storedOf p := by
  have hAccount : d.session.account = c.session.account := by
    unfold GameSession.account
    rw [hKeeps.names]
  have hNobody : ∀ q ∈ d.session.players,
      d.session.account q ≠ c.session.account p := by
    rw [hAccount]
    intro q hq hSame
    have hEq := hBacked.ownAccounts q
      (hBacked.among (hKeeps.players hq)) p hMem hSame
    exact hGone (hEq ▸ hq)
  rw [hLogs.storedOf hKeeps.names,
    GameSession.stacksFor_of_nobody hNobody]
  rfl

/- All stacks are stored, and the table is worth no more. -/
theorem Config.Backed.settled
    (hBacked : c.Backed everybody funds)
    (hOk : c.step e = .ok d)
    (hPlayers : d.session.players = c.session.players)
    (hLogs : c.session.Logs d.session d.session.stacksFor)
    (hDealtIn : ∀ p ∈ d.session.players,
      (d.session.chips.find p).isSome) :
    d.Backed everybody funds := by
  have hKeeps := (step_of_ok hOk).keeps
  have hWorth := (hBacked.accounted.step (step_of_ok hOk)).2
  have hNodup : d.session.players.Nodup := by
    rw [hPlayers]
    exact hBacked.accounted.inOrder.1.nodup
  have hOwn : d.session.OwnAccounts := by
    have hHere : c.session.OwnAccounts := fun p hp q hq =>
      hBacked.ownAccounts p (hBacked.among hp) q
        (hBacked.among hq)
    exact hKeeps.ownAccounts hHere
  have hStored : ∀ p ∈ d.session.players,
      d.session.storedOf p =
        (d.session.chips.get p).toNat := by
    intro p hp
    rcases Option.isSome_iff_exists.mp (hDealtIn p hp) with
      ⟨chips, hChips⟩
    have hAccount : c.session.account p =
        d.session.account p := by
      unfold GameSession.account
      rw [hKeeps.names]
    rw [hLogs.storedOf hKeeps.names, hAccount,
      GameSession.stacksFor_of_own hOwn hNodup hp hChips]
    simp [KeyMap.get, hChips]
  have hAway : d.session.storedAway everybody =
      c.session.storedAway everybody := by
    unfold GameSession.storedAway
    rw [hPlayers]
    apply List.sum_map_congr
    intro p hp
    split
    · rfl
    next hGone =>
      exact hBacked.storedOf_gone hKeeps hLogs hp
        (hPlayers ▸ hGone)
  have hSeats : d.session.stored d.session.players =
      d.session.seatedStacks := by
    rw [GameSession.seatedStacks_of_dealtIn hDealtIn]
    exact List.sum_map_congr hStored
  have hTable : d.session.worth +
      d.session.storedAway everybody ≤ funds := by
    have hBefore := hBacked.atTable
    omega
  refine hBacked.next hOk hTable (fun _ => ?_)
    fun _ p hp => (hStored p hp).ge
  rw [GameSession.stored_eq hNodup hBacked.nodup
    (hPlayers ▸ hBacked.among), hSeats]
  unfold GameSession.worth at hTable
  omega

/- Nothing is stored, and nobody has more than before. -/
theorem Config.Backed.unsettled
    (hBacked : c.Backed everybody funds)
    (hOk : c.step e = .ok d)
    (hOpen : c.pending ≠ .start)
    (hPlayers : d.session.players = c.session.players)
    (hLogs : c.session.Logs d.session fun _ => [])
    (hChips : ∀ p, (d.session.chips.get p).toNat ≤
      (c.session.chips.get p).toNat) :
    d.Backed everybody funds := by
  have hWorth := (hBacked.accounted.step (step_of_ok hOk)).2
  have hStored : d.session.storedOf = c.session.storedOf := by
    funext p
    rw [hLogs.storedOf (step_of_ok hOk).keeps.names]
    rfl
  have hBefore := hBacked.atTable
  refine hBacked.next hOk ?_ (fun _ => ?_) fun _ p hp => ?_
  · have hAway : d.session.storedAway everybody =
        c.session.storedAway everybody := by
      unfold GameSession.storedAway
      rw [hPlayers, hStored]
    omega
  · have hSame : d.session.stored everybody =
        c.session.stored everybody := by
      unfold GameSession.stored
      rw [hStored]
    rw [hSame]
    exact hBacked.onFile hOpen
  · rw [hStored]
    rw [hPlayers] at hp
    exact (hChips p).trans (hBacked.covered hOpen p hp)

/- What the last step of a removal leaves of the table. -/
theorem Step.left
    {s : GameSession}
    {leaver : Leaver}
    (hStep : Step ⟨s, .resume (.finishRemoval leaver)⟩ e d)
    (hSeated :
      Config.Seated ⟨s, .resume (.finishRemoval leaver)⟩) :
    d.pending ≠ .start ∧
      (∀ p, p ∈ d.session.players ↔
        p ∈ s.players ∧ p ≠ leaver.player) ∧
      ∀ p, p ≠ leaver.player →
        d.session.chips.get p = s.chips.get p := by
  have hAt := (hSeated.leaver leaver rfl).1
  have hVacated :
      (∀ p, p ∈ (s.vacate leaver).players ↔
        p ∈ s.players ∧ p ≠ leaver.player) ∧
      ∀ p, p ≠ leaver.player →
        (s.vacate leaver).chips.get p = s.chips.get p := by
    rw [GameSession.vacate_players, GameSession.vacate_chips]
    exact ⟨fun p => GameSession.mem_eraseIdx hSeated.nodup hAt,
      fun p hp => KeyMap.get_erase_of_ne _ hp⟩
  cases hStep with
  | leftFew hFew hErased =>
      refine ⟨by simp, ?_⟩
      rcases hErased with rfl | rfl
      · exact hVacated
      · exact hVacated
  | leftOneActive hEnough hOne => exact ⟨by simp, hVacated⟩
  | leftClosing hEnough hMany hCloses =>
      refine ⟨?_, hVacated⟩
      rcases hCloses with ⟨_, rfl⟩ | ⟨_, rfl⟩
      · simp
      · simp
  | leftWaiting hEnough hMany hOther hOpen hQuiet =>
      refine ⟨by simp, ?_⟩
      rcases hQuiet with ⟨_, _, rfl, _⟩
      exact hVacated

/- A leaver's stack is stored, and it was covered. -/
theorem Config.Backed.left
    {s : GameSession}
    {leaver : Leaver}
    (hBacked : Config.Backed
      ⟨s, .resume (.finishRemoval leaver)⟩ everybody funds)
    (hOk : Config.step ⟨s, .resume (.finishRemoval leaver)⟩ e =
      .ok d) :
    d.Backed everybody funds := by
  have hStep := step_of_ok hOk
  have hKeeps := hStep.keeps
  have hSeated := hBacked.accounted.inOrder.1
  have hWorth := (hBacked.accounted.step hStep).2
  rcases hStep.left hSeated with ⟨_, hPlayers, hChips⟩
  have hSeat : leaver.player ∈ s.players :=
    List.mem_of_getElem? (hSeated.leaver leaver rfl).1
  have hMem := hBacked.among hSeat
  rcases Option.isSome_iff_exists.mp
      ((hSeated.dealtIn (by simp)).2 leaver.player hSeat) with
    ⟨stack, hStack⟩
  have hGet : s.chips.get leaver.player = stack := by
    have hFind : s.chips.find leaver.player = some stack :=
      hStack
    simp [KeyMap.get, hFind]
  rcases Config.logs_of_ok hBacked.hasRepository hOk with
    ⟨new, rfl, hLogs⟩
  have hLeaver : d.session.storedOf leaver.player =
      stack.toNat := by
    have hFind : s.chips.find leaver.player = some stack :=
      hStack
    rw [hLogs.storedOf hKeeps.names]
    simp [GameSession.stackFor, hFind]
  have hOthers : ∀ p ∈ everybody, p ≠ leaver.player →
      d.session.storedOf p = s.storedOf p := by
    intro p hp hNe
    have hOther : s.account leaver.player ≠ s.account p :=
      fun hSame => hNe (hBacked.ownAccounts leaver.player hMem
        p hp hSame).symm
    rw [hLogs.storedOf hKeeps.names]
    simp [GameSession.stackFor, hOther]
  have hCovered := hBacked.covered (by simp) leaver.player
    hSeat
  have hFile := hBacked.onFile (by simp)
  have hTable := hBacked.atTable
  have hStored := List.sum_map_exchange hBacked.nodup hMem
    hOthers
  dsimp only at hCovered hFile hTable hWorth
  refine hBacked.next hOk ?_ (fun _ => ?_) fun _ p hp => ?_
  · have hAway := List.sum_map_exchange
      (f := fun p => if p ∈ d.session.players then 0
        else d.session.storedOf p)
      (g := fun p => if p ∈ s.players then 0
        else s.storedOf p)
      hBacked.nodup hMem (by
        intro p hp hNe
        rw [hOthers p hp hNe]
        simp [hPlayers, hNe])
    have hGone : leaver.player ∉ d.session.players :=
      fun h => ((hPlayers _).mp h).2 rfl
    simp only [if_pos hSeat, if_neg hGone, hLeaver] at hAway
    unfold GameSession.storedAway at hTable ⊢
    change d.session.worth +
      ((s.chips.get leaver.player).toNat + 0) = s.worth
        at hWorth
    rw [hGet] at hWorth
    omega
  · unfold GameSession.stored at hFile ⊢
    rw [hLeaver] at hStored
    rw [hGet] at hCovered
    omega
  · rcases (hPlayers p).mp hp with ⟨hSat, hNe⟩
    rw [hChips p hNe, hOthers p (hBacked.among hSat) hNe]
    exact hBacked.covered (by simp) p hSat

/- Every step keeps the balances backed by the same funds. -/
theorem Config.Backed.step
    (hBacked : c.Backed everybody funds)
    (hOk : c.step e = .ok d) :
    d.Backed everybody funds := by
  have hStep := step_of_ok hOk
  have hSeated := hBacked.accounted.inOrder.1.step hStep
  rcases Config.logs_of_ok hBacked.hasRepository hOk with
    ⟨new, hWrites, hLogs⟩
  rcases c with ⟨s, pending⟩
  have hRest : pending ≠ .start → pending.isAward = false →
      (∀ leaver, pending ≠ .resume (.finishRemoval leaver)) →
      new = (fun _ => []) → d.Backed everybody funds := by
    intro hOpen hAward hStays hNone
    subst hNone
    rcases hStep.chips_le hOpen hAward hStays with
      ⟨hPlayers, hChips⟩
    exact hBacked.unsettled hOk hOpen hPlayers hLogs hChips
  cases pending with
  | start =>
      have hNew : new = d.session.stacksFor := hWrites
      subst hNew
      cases hStep with
      | @started s dealt posted t shuffle hDealt hPosted
          hQuiet =>
          have hPlayers : t.players = s.players := by
            have hFrame :=
              GameSession.started_dealtIn hDealt hPosted
            rcases hQuiet with ⟨_, _, rfl, _⟩
            exact hFrame.1
          exact hBacked.settled hOk hPlayers hLogs
            (hSeated.dealtIn (by simp)).2
  | awardAllPots next =>
      have hAward := Config.awarded_of_ok rfl hOk
      have hDealtIn : ∀ p ∈ d.session.players,
          (d.session.chips.find p).isSome := by
        cases hStep with
        | awardedNothing hEmpty =>
            exact (hSeated.dealtIn (by simp)).2
        | awarded hFull hPaid hQuiet =>
            exact (hSeated.dealtIn (by simp)).2
      rcases GameSession.awardAllPots_saves
          hBacked.hasRepository hAward with
        ⟨hPlayers, ⟨hChips, hNone⟩ | hAll⟩
      · exact hBacked.unsettled hOk (by simp) hPlayers hNone
          fun p => by rw [hChips]
      · exact hBacked.settled hOk hPlayers hAll hDealtIn
  | done => exact hRest (by simp) rfl (by simp) hWrites
  | askCurrentPlayer =>
      exact hRest (by simp) rfl (by simp) hWrites
  | nextPhase => exact hRest (by simp) rfl (by simp) hWrites
  | doShowdown => exact hRest (by simp) rfl (by simp) hWrites
  | handleSingleWinner =>
      exact hRest (by simp) rfl (by simp) hWrites
  | resume next =>
      cases next with
      | tryStartNewHand =>
          exact hRest (by simp) rfl (by simp) hWrites
      | finishRemoval leaver => exact hBacked.left hOk

theorem Config.Backed.run
    {trace : List (Config × Event)}
    (hBacked : c.Backed everybody funds)
    (run : Transition.Run Config.step c trace d) :
    d.Backed everybody funds := by
  have hKeep : ∀ (f : Config) (e : Event) (g : Config),
      f.Backed everybody funds → f.step e = .ok g →
      g.Backed everybody funds :=
    fun _ _ _ hHere hOk => hHere.step hOk
  exact run.invariant_of_step hKeep hBacked

end Backed

end Server

end Poker

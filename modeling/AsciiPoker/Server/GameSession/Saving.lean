import AsciiPoker.Server.GameSession.Seated
import AsciiPoker.Server.Storage.UserRepository

/-
  What a session writes to the accounts of its players.

  Stacks are saved in three places: after the blinds, with
  an award, and when a player leaves.  `Config.logs_of_ok`
  says of every step what it appends to the log and what of
  that is written to an account.

  Main declarations:
    * `Effect.written`, `GameSession.written`
    * `GameSession.Logs`, `Config.Writes`
    * `Config.logs_of_ok`
-/

------------------------------------------------------------
-- Accounts
------------------------------------------------------------

namespace Poker

namespace Server

open Protocol

/- What an effect writes to an account, if it does. -/
def Effect.written
    (account : String) : Effect → Option UInt32
| .send _ _ => none
| .updateChips username chips =>
    if noCase username = account then some chips else none

namespace GameSession

/- The account of a player, as the table `users` finds it. -/
def account
    (s : GameSession)
    (p : PlayerId) : String :=
  noCase (s.names p)

/- What a session wrote to an account, oldest first. -/
def written
    (s : GameSession)
    (account : String) : List UInt32 :=
  s.log.filterMap (Effect.written account)

/- What saving a player's stack writes to an account. -/
def stackFor
    (s : GameSession)
    (account : String)
    (p : PlayerId) : Option UInt32 :=
  if s.account p = account then s.chips.find p else none

/- What saving every stack writes to an account. -/
def stacksFor
    (s : GameSession)
    (account : String) : List UInt32 :=
  s.players.filterMap (s.stackFor account)

/-
  `t` has the log of `s` and entries that write `new` to the
  accounts.
-/
def Logs
    (s t : GameSession)
    (new : String → List UInt32) : Prop :=
  ∃ entries, t.log = s.log ++ entries ∧
    ∀ account,
      entries.filterMap (Effect.written account) = new account

------------------------------------------------------------
-- Functions
------------------------------------------------------------

variable {s t u : GameSession}
variable {new more : String → List UInt32}

theorem Logs.written
    (hLogs : s.Logs t new)
    (account : String) :
    t.written account = s.written account ++ new account := by
  rcases hLogs with ⟨entries, hLog, hNew⟩
  unfold GameSession.written
  rw [hLog, List.filterMap_append, hNew]

theorem Logs.trans
    (hFirst : s.Logs t new)
    (hSecond : t.Logs u more) :
    s.Logs u (fun account => new account ++ more account) := by
  rcases hFirst with ⟨entries, hLog, hNew⟩
  rcases hSecond with ⟨entries', hLog', hMore⟩
  refine ⟨entries ++ entries', ?_, fun account => ?_⟩
  · rw [hLog', hLog, List.append_assoc]
  · rw [List.filterMap_append, hNew, hMore]

/- A function that logs nothing writes nothing. -/
theorem logs_of_log_eq
    (hLog : t.log = s.log) :
    s.Logs t fun _ => [] :=
  ⟨[], by rw [hLog, List.append_nil], fun _ => rfl⟩

/- Before an equal log, after an equal log. -/
theorem Logs.congr
    {u v : GameSession}
    (hLogs : s.Logs t new)
    (hBefore : u.log = s.log)
    (hAfter : v.log = t.log) :
    u.Logs v new := by
  rcases hLogs with ⟨entries, hLog, hNew⟩
  exact ⟨entries, by rw [hAfter, hBefore, hLog], hNew⟩

theorem send_logs
    (s : GameSession)
    (player : PlayerId)
    (msg : ServerMessage) :
    s.Logs (s.send player msg) fun _ => [] :=
  ⟨_, rfl, fun _ => rfl⟩

theorem sendAll_logs
    (s : GameSession)
    (msg : PlayerId → ServerMessage) :
    s.Logs (s.sendAll msg) fun _ => [] := by
  refine ⟨_, rfl, fun account => ?_⟩
  rw [List.filterMap_map]
  simp [Effect.written]

theorem broadcastState_logs
    (hOk : s.broadcastState = .ok t) :
    s.Logs t fun _ => [] := by
  unfold broadcastState at hOk
  rcases Except.bind_eq_ok.mp hOk with ⟨states, _, hRest⟩
  rcases Except.bind_eq_ok.mp hRest with ⟨active, _, hEnd⟩
  cases hEnd
  exact s.sendAll_logs _

/- Saving a stack writes it to the player's account. -/
theorem persistPlayerChips_logs
    (hRepository : s.hasRepository = true)
    (p : PlayerId) :
    s.Logs (s.persistPlayerChips p)
      fun account => (s.stackFor account p).toList := by
  unfold persistPlayerChips
  rw [if_pos hRepository]
  cases hFind : s.chips.find p with
  | none =>
      refine ⟨[], by simp, fun account => ?_⟩
      simp [stackFor, hFind]
  | some chips =>
      refine ⟨_, rfl, fun account => ?_⟩
      by_cases hHere : s.account p = account
      · have hName : noCase (s.names p) = account := hHere
        simp [stackFor, hFind, hHere, Effect.written, hName]
      · have hName : noCase (s.names p) ≠ account := hHere
        simp [stackFor, hHere, Effect.written, hName]

theorem persistAllChips_logs
    (hRepository : s.hasRepository = true) :
    s.Logs s.persistAllChips s.stacksFor := by
  unfold persistAllChips stacksFor
  generalize s.players = ps
  induction ps generalizing s with
  | nil => exact logs_of_log_eq rfl
  | cons p ps ih =>
      have hFirst := persistPlayerChips_logs hRepository p
      have hStacks : (s.persistPlayerChips p).stackFor =
          s.stackFor := by
        rcases s.persistPlayerChips_quiet p with
          ⟨_, _, hEq, _⟩
        rw [hEq]
        rfl
      have hStill : (s.persistPlayerChips p).hasRepository =
          true := by
        rcases s.persistPlayerChips_quiet p with
          ⟨_, _, hEq, _⟩
        rw [hEq]
        exact hRepository
      have hRest := hFirst.trans (ih hStill)
      rw [hStacks] at hRest
      rcases hRest with ⟨entries, hLog, hNew⟩
      refine ⟨entries, hLog, fun account => ?_⟩
      rw [hNew]
      dsimp only
      rw [List.filterMap_cons]
      cases s.stackFor account p with
      | none => rfl
      | some chips => rfl

theorem closeRoundOrAsk_logs
    {pending : Pending}
    (hOk : s.closeRoundOrAsk = .ok (t, pending)) :
    s.Logs t fun _ => [] := by
  rcases closes_of_ok hOk with ⟨rfl, _⟩
  exact logs_of_log_eq rfl

/- The pending calls that tell and ask write nothing. -/
theorem askCurrentPlayer_logs
    {pending : Pending}
    (hOk : s.askCurrentPlayer = .ok (t, pending)) :
    s.Logs t fun _ => [] := by
  unfold askCurrentPlayer at hOk
  rcases Except.bind_eq_ok.mp hOk with ⟨p, _, hRest⟩
  split at hRest
  · exact (closeRoundOrAsk_logs hRest).congr rfl rfl
  · cases hRest
    exact s.send_logs p _

theorem dealStreet_logs
    {count : Nat}
    {phase : GamePhase}
    {pending : Pending}
    (hOk : s.dealStreet count phase = .ok (t, pending)) :
    s.Logs t fun _ => [] := by
  unfold dealStreet at hOk
  rcases Except.bind_eq_ok.mp hOk with ⟨cards, _, hRest⟩
  rcases Except.bind_eq_ok.mp hRest with ⟨sent, hSent, hEnd⟩
  cases hEnd
  exact (broadcastState_logs hSent).congr rfl rfl

theorem nextPhase_logs
    {pending : Pending}
    (hOk : s.nextPhase = .ok (t, pending)) :
    s.Logs t fun _ => [] := by
  unfold nextPhase at hOk
  split at hOk
  · cases hOk
    exact logs_of_log_eq rfl
  · cases hPhase : s.phase with
    | preFlop =>
        rw [hPhase] at hOk
        exact (dealStreet_logs hOk).congr rfl rfl
    | flop =>
        rw [hPhase] at hOk
        exact (dealStreet_logs hOk).congr rfl rfl
    | turn =>
        rw [hPhase] at hOk
        exact (dealStreet_logs hOk).congr rfl rfl
    | river =>
        rw [hPhase] at hOk
        cases hOk
        exact logs_of_log_eq rfl
    | showdown =>
        rw [hPhase] at hOk
        cases hOk
        exact logs_of_log_eq rfl

theorem doShowdown_logs
    {pending : Pending}
    (hOk : s.doShowdown = .ok (t, pending)) :
    s.Logs t fun _ => [] := by
  unfold doShowdown at hOk
  rcases Except.bind_eq_ok.mp hOk with ⟨sent, hSent, hRest⟩
  have hLogs := (broadcastState_logs hSent).congr
    (u := s) (v := sent) rfl rfl
  split at hRest
  · cases hRest
    exact hLogs
  · split at hRest
    · cases hRest
      exact hLogs
    · cases hRest
      exact hLogs

theorem tryStartNewHand_logs
    (s : GameSession) :
    s.Logs s.tryStartNewHand.1 fun _ => [] := by
  unfold tryStartNewHand
  split
  · exact logs_of_log_eq rfl
  · split
    · exact logs_of_log_eq rfl
    · exact logs_of_log_eq rfl

theorem afterAction_logs
    {p : PlayerId}
    {action : Action}
    {amount : Option UInt32}
    {pending : Pending}
    (hOk : s.afterAction p action amount = .ok (t, pending)) :
    s.Logs t fun _ => [] := by
  unfold afterAction at hOk
  have hTold := ((s.recordPlayerAction p action).sendAll_logs
    fun _ => .actionEvent ⟨s.names p, action, amount⟩).congr
      (u := s) rfl rfl
  dsimp only at hOk
  split at hOk
  · cases hOk
    exact hTold
  · have hClosed := (closeRoundOrAsk_logs hOk).congr
      (v := t) rfl rfl
    exact hTold.trans hClosed

theorem applyAction_logs
    {connection : ConnId}
    {action : Action}
    {amount : Option UInt32}
    {pending : Pending}
    (hOk : s.applyAction connection action amount =
      .ok (t, pending)) :
    s.Logs t fun _ => [] := by
  unfold applyAction at hOk
  split at hOk
  · cases hOk
    exact logs_of_log_eq rfl
  · rcases Except.bind_eq_ok.mp hOk with ⟨onTurn, _, hRest⟩
    split at hRest
    · cases hRest
      exact s.send_logs _ _
    · split at hRest
      next hActs =>
        cases hRest
        exact s.send_logs _ _
      next hActs =>
        have hLog := (acts_of_ok hActs).log_eq
        exact (afterAction_logs hRest).congr hLog.symm rfl

theorem removePlayer_logs
    {connection : ConnId}
    {pending : Pending}
    (hOk : s.removePlayer connection = .ok (t, pending)) :
    s.Logs t fun _ => [] := by
  unfold removePlayer at hOk
  split at hOk
  · cases hOk
    exact logs_of_log_eq rfl
  · split at hOk
    · cases hOk
      exact logs_of_log_eq rfl
    · rcases Except.bind_eq_ok.mp hOk with ⟨current, _, hEnd⟩
      have hBegun := Except.ok.inj hEnd
      unfold beginRemoval at hBegun
      dsimp only at hBegun
      split at hBegun
      · cases hBegun
        exact logs_of_log_eq rfl
      · cases hBegun
        exact logs_of_log_eq rfl

------------------------------------------------------------
-- The Three Places
------------------------------------------------------------

/- The deal and the blinds log nothing. -/
theorem Dealt.log_frame
    {dealt posted : GameSession}
    {shuffle : Shuffle}
    (hDealt : s.Dealt shuffle dealt)
    (hPosted : dealt.postBlinds = .ok posted) :
    posted.log = s.log ∧
      posted.hasRepository = s.hasRepository := by
  rcases hDealt.spec with ⟨_, _, _, _, _, rfl, _⟩
  rcases blinds_of_ok hPosted with ⟨sb, bb, _, _, rfl⟩
  exact ⟨(contribute_log _ bb _).trans (contribute_log _ sb _),
    (contribute_hasRepository _ bb _).trans
      (contribute_hasRepository _ sb _)⟩

/- Stacks are saved after the blinds. -/
theorem start_logs
    {shuffle : Shuffle}
    {pending : Pending}
    (hRepository : s.hasRepository = true)
    (hOk : s.start shuffle = .ok (t, pending)) :
    s.Logs t t.stacksFor := by
  unfold start at hOk
  rcases Except.bind_eq_ok.mp hOk with ⟨dealt, hDealt, hRest⟩
  rcases Except.bind_eq_ok.mp hRest with
    ⟨posted, hPosted, hRest⟩
  rcases Except.bind_eq_ok.mp hRest with ⟨sent, hSent, hEnd⟩
  cases hEnd
  have hServed : s.Dealt shuffle dealt := hDealt
  rcases hServed.log_frame hPosted with ⟨hLog, hHas⟩
  have hSaved := persistAllChips_logs (s := posted.openPreFlop)
    (hHas.trans hRepository)
  have hStacks : t.stacksFor = posted.openPreFlop.stacksFor := by
    have hQuiet := (persistAllChips_quiet _).trans
      (broadcastState_quiet hSent)
    rcases hQuiet with ⟨_, _, hEq, _⟩
    rw [hEq]
    rfl
  rw [hStacks]
  have hAll := (hSaved.trans (broadcastState_logs hSent)).congr
    (u := s) (v := t) hLog.symm rfl
  simpa using hAll

/- An award saves the stacks, if it pays anybody. -/
theorem awardAllPots_logs
    (hRepository : s.hasRepository = true)
    (hOk : s.awardAllPots = .ok t) :
    (s.Logs t fun _ => []) ∨ s.Logs t t.stacksFor := by
  unfold awardAllPots at hOk
  split at hOk
  · cases hOk
    exact Or.inl (logs_of_log_eq rfl)
  rcases Except.bind_eq_ok.mp hOk with ⟨award, hPaid, hRest⟩
  rcases Except.bind_eq_ok.mp hRest with ⟨told, hTold, hEnd⟩
  cases hEnd
  rcases payPots_frame hPaid with ⟨chips, hFrame⟩
  have hLog : award.session.log = s.log := by
    rw [hFrame]
  have hHas : award.session.hasRepository = true := by
    rw [hFrame]
    exact hRepository
  unfold announceAward at hTold
  split at hTold
  · rcases Except.bind_eq_ok.mp hTold with ⟨sent, hSent, hEnd⟩
    cases hEnd
    have hSaved := persistAllChips_logs hHas
    have hQuiet := (persistAllChips_quiet award.session).trans
      (broadcastState_quiet hSent)
    have hStacks : sent.stacksFor =
        award.session.stacksFor := by
      rcases hQuiet with ⟨_, _, hEq, _⟩
      rw [hEq]
      rfl
    have hAll := ((hSaved.trans (broadcastState_logs hSent)).trans
      (sent.sendAll_logs fun _ => .handResult
        ⟨award.winnerNames, award.totalAwarded,
          award.winnerHandLabels⟩)).congr (u := s) hLog.symm rfl
    rw [← hStacks] at hAll
    simp only [List.append_nil] at hAll
    exact Or.inr (hAll.congr rfl rfl)
  · cases hTold
    exact Or.inl (logs_of_log_eq hLog)

/- The stack of whoever leaves is saved. -/
theorem finishRemoval_logs
    {leaver : Leaver}
    {pending : Pending}
    (hRepository : s.hasRepository = true)
    (hOk : s.finishRemoval leaver = .ok (t, pending)) :
    s.Logs t fun account =>
      (s.stackFor account leaver.player).toList := by
  have hSaved := persistPlayerChips_logs hRepository
    leaver.player
  unfold finishRemoval at hOk
  dsimp only at hOk
  split at hOk
  · cases hOk
    exact hSaved.congr rfl rfl
  split at hOk
  · cases hOk
    exact hSaved.congr rfl rfl
  split at hOk
  · cases hOk
    exact hSaved.congr rfl rfl
  unfold continueAfterPlayerLeft at hOk
  rcases Except.bind_eq_ok.mp hOk with ⟨complete, _, hRest⟩
  split at hRest
  · split at hRest
    · cases hRest
      exact hSaved.congr rfl rfl
    · cases hRest
      exact hSaved.congr rfl rfl
  · rcases Except.bind_eq_ok.mp hRest with ⟨sent, hSent, hEnd⟩
    cases hEnd
    have hTold := (broadcastState_logs hSent).congr
      (u := s.persistPlayerChips leaver.player)
      (v := t) rfl rfl
    simpa using hSaved.trans hTold

end GameSession

------------------------------------------------------------
-- Steps
------------------------------------------------------------

namespace Config

/- What a step from `c` to `d` writes to the accounts. -/
def Writes
    (c d : Config)
    (new : String → List UInt32) : Prop :=
  match c.pending with
  | .start => new = d.session.stacksFor
  | .awardAllPots _ =>
      (new = fun _ => []) ∨ new = d.session.stacksFor
  | .resume (.finishRemoval leaver) =>
      new = fun account =>
        (c.session.stackFor account leaver.player).toList
  | .done => new = fun _ => []
  | .askCurrentPlayer => new = fun _ => []
  | .nextPhase => new = fun _ => []
  | .doShowdown => new = fun _ => []
  | .handleSingleWinner => new = fun _ => []
  | .resume .tryStartNewHand => new = fun _ => []

/- Every step adds to the log, and writes just this. -/
theorem logs_of_ok
    {c d : Config}
    {e : Event}
    (hRepository : c.session.hasRepository = true)
    (hOk : c.step e = .ok d) :
    ∃ new, c.Writes d new ∧ c.session.Logs d.session new := by
  rcases c with ⟨s, pending⟩
  rcases d with ⟨t, after⟩
  cases e with
  | proceed shuffle =>
      simp only [Config.step, Config.ofResult_eq_ok] at hOk
      cases pending with
      | done => cases hOk
      | start =>
          exact ⟨_, rfl, GameSession.start_logs hRepository hOk⟩
      | askCurrentPlayer =>
          exact ⟨_, rfl, GameSession.askCurrentPlayer_logs hOk⟩
      | nextPhase =>
          exact ⟨_, rfl, GameSession.nextPhase_logs hOk⟩
      | doShowdown =>
          exact ⟨_, rfl, GameSession.doShowdown_logs hOk⟩
      | handleSingleWinner =>
          cases hOk
          exact ⟨_, rfl, GameSession.logs_of_log_eq rfl⟩
      | awardAllPots next =>
          simp only [GameSession.body] at hOk
          cases hAward : s.awardAllPots with
          | error exn =>
              rw [hAward] at hOk
              cases hOk
          | ok u =>
              rw [hAward] at hOk
              cases hOk
              rcases GameSession.awardAllPots_logs hRepository
                  hAward with hNone | hAll
              · exact ⟨_, Or.inl rfl, hNone⟩
              · exact ⟨_, Or.inr rfl, hAll⟩
      | resume next =>
          cases next with
          | tryStartNewHand =>
              have hLogs := s.tryStartNewHand_logs
              simp only [GameSession.body, Except.ok.injEq]
                at hOk
              rw [hOk] at hLogs
              exact ⟨_, rfl, hLogs⟩
          | finishRemoval leaver =>
              exact ⟨_, rfl,
                GameSession.finishRemoval_logs hRepository hOk⟩
  | applyAction connection action amount =>
      simp only [Config.step] at hOk
      split at hOk
      next hIdle =>
        rw [Config.ofResult_eq_ok] at hOk
        have hDone : pending = .done := hIdle.1
        subst hDone
        exact ⟨_, rfl, GameSession.applyAction_logs hOk⟩
      next => cases hOk
  | removePlayer connection =>
      simp only [Config.step] at hOk
      split at hOk
      next hIdle =>
        rw [Config.ofResult_eq_ok] at hOk
        have hDone : pending = .done := hIdle.1
        subst hDone
        exact ⟨_, rfl, GameSession.removePlayer_logs hOk⟩
      next => cases hOk

end Config

end Server

end Poker

import AsciiPoker.Library.Mailbox
import AsciiPoker.Server.GameSession.Saving

/-
  What a session says, step by step.

  `Says c d entries` tells what a step from `c` to
  `d` appends to the log: the updates that `broadcast_state`
  sends show the table as `d` has it, and everything else is
  a question, an error, an announcement or a saved stack.

  Main declarations:
    * `Effect.letter`, `GameSession.letters`
    * `GameSession.Updates`, `Saves`
    * `Says`, `Config.says_of_ok`
    * `ServerMessage.InGame`, `Says.inGame`
-/

------------------------------------------------------------
-- Letters of a Session
------------------------------------------------------------

namespace Poker

namespace Server

open Protocol

/- The letter that an effect sends, if it does. -/
def Effect.letter : Effect → Option (PlayerId × ServerMessage)
| .send player msg => some (player, msg)
| .updateChips _ _ => none

/- Stacks are saved and nothing else is done. -/
def Saves
    (entries : List Effect) : Prop :=
  ∀ entry ∈ entries, ∃ username chips,
    entry = .updateChips username chips

/- Everybody is sent his message, in seat order. -/
def sendsTo
    (players : List PlayerId)
    (msg : PlayerId → ServerMessage) : List Effect :=
  players.map fun p => .send p (msg p)

theorem letters_sendsTo
    (players : List PlayerId)
    (msg : PlayerId → ServerMessage) :
    (sendsTo players msg).filterMap Effect.letter =
      Mailbox.toAll players msg := by
  unfold sendsTo Mailbox.toAll
  rw [List.filterMap_map]
  exact congrFun List.filterMap_eq_map players

theorem Saves.letters_eq
    {entries : List Effect}
    (hSaves : Saves entries) :
    entries.filterMap Effect.letter = [] := by
  rw [List.filterMap_eq_nil_iff]
  intro entry hMem
  rcases hSaves entry hMem with ⟨username, chips, rfl⟩
  rfl

theorem Saves.append
    {entries more : List Effect}
    (hFirst : Saves entries)
    (hSecond : Saves more) :
    Saves (entries ++ more) := by
  intro entry hMem
  rcases List.mem_append.mp hMem with hEarlier | hLater
  · exact hFirst entry hEarlier
  · exact hSecond entry hLater

namespace GameSession

variable {s t : GameSession}

/- All letters of a session, oldest first. -/
def letters
    (s : GameSession) : List (PlayerId × ServerMessage) :=
  s.log.filterMap Effect.letter

/- What `broadcast_state` sends to `p`. -/
def updateFor
    (s : GameSession)
    (active : PlayerId)
    (states : List PlayerState)
    (p : PlayerId) : GameStateUpdate where
  generalCards := s.communityCards
  yourCards := s.hands.get p
  phase := s.phase
  activePlayerName :=
    if s.canPlayerAct active then s.names active else ""
  totalPot := s.pot
  currentBet := s.currentBet
  players := states

/- The updates of `broadcast_state`, one to each player. -/
def Updates
    (s : GameSession)
    (entries : List Effect) : Prop :=
  ∃ active states,
    s.players[s.currentPlayerIndex]? = some active ∧
      s.buildPlayerStates (decide (s.phase = .showdown)) =
        .ok states ∧
      entries = sendsTo s.players fun p =>
        .gameStateUpdate (s.updateFor active states p)

------------------------------------------------------------
-- Functions
------------------------------------------------------------

theorem updates_of_ok
    (hOk : s.broadcastState = .ok t) :
    ∃ told, t = { s with log := s.log ++ told } ∧
      s.Updates told := by
  unfold broadcastState at hOk
  rcases Except.bind_eq_ok.mp hOk with
    ⟨states, hStates, hRest⟩
  rcases Except.bind_eq_ok.mp hRest with
    ⟨active, hActive, hEnd⟩
  cases hEnd
  exact ⟨_, rfl, active, states, playerAt_eq_ok.mp hActive,
    hStates, rfl⟩

theorem persistPlayerChips_saves
    (s : GameSession)
    (p : PlayerId) :
    ∃ saved, (s.persistPlayerChips p).log = s.log ++ saved ∧
      Saves saved := by
  have hNothing : ∃ saved, s.log = s.log ++ saved ∧
      Saves saved :=
    ⟨[], (List.append_nil _).symm, by simp [Saves]⟩
  unfold persistPlayerChips
  split
  · split
    · exact hNothing
    · exact ⟨_, rfl, by simp [Saves]⟩
  · exact hNothing

theorem persistAllChips_saves
    (s : GameSession) :
    ∃ saved, s.persistAllChips.log = s.log ++ saved ∧
      Saves saved := by
  unfold persistAllChips
  generalize s.players = ps
  induction ps generalizing s with
  | nil =>
      exact ⟨[], (List.append_nil _).symm, by simp [Saves]⟩
  | cons p ps ih =>
      rcases s.persistPlayerChips_saves p with
        ⟨saved, hLog, hSaves⟩
      rcases ih (s.persistPlayerChips p) with
        ⟨more, hMore, hSavesMore⟩
      refine ⟨saved ++ more, ?_, hSaves.append hSavesMore⟩
      rw [List.foldl_cons, hMore, hLog, List.append_assoc]

end GameSession

------------------------------------------------------------
-- Steps
------------------------------------------------------------

/-
  What a step says.  An award is announced before the pot is
  emptied, so its updates show another pot.
-/
inductive Says : Config → Config → List Effect → Prop
  | started
      {s : GameSession}
      {d : Config}
      {saved told : List Effect}
      (hSaves : Saves saved)
      (hUpdates : d.session.Updates told) :
      Says ⟨s, .start⟩ d (saved ++ told)
  | asked
      {s : GameSession}
      {d : Config}
      {p : PlayerId}
      (hDone : d.pending = .done)
      (hAt : s.players[s.currentPlayerIndex]? = some p) :
      Says ⟨s, .askCurrentPlayer⟩ d
        [.send p (.yourTurn (s.yourTurn p))]
  | passedOver
      {s : GameSession}
      {d : Config}
      (hBusy : d.pending ≠ .done) :
      Says ⟨s, .askCurrentPlayer⟩ d []
  | street
      {s : GameSession}
      {d : Config}
      {told : List Effect}
      (hAsk : d.pending = .askCurrentPlayer)
      (hUpdates : d.session.Updates told) :
      Says ⟨s, .nextPhase⟩ d told
  | closed
      {s : GameSession}
      {d : Config}
      (hNext : d.pending ≠ .askCurrentPlayer) :
      Says ⟨s, .nextPhase⟩ d []
  | shownDown
      {s : GameSession}
      {d : Config}
      {told : List Effect}
      (hUpdates : d.session.Updates told) :
      Says ⟨s, .doShowdown⟩ d told
  | singleWinner
      {s : GameSession}
      {d : Config} :
      Says ⟨s, .handleSingleWinner⟩ d []
  | awardedNobody
      {s : GameSession}
      {d : Config}
      {next : AfterAward} :
      Says ⟨s, .awardAllPots next⟩ d []
  | awarded
      {s : GameSession}
      {d : Config}
      {next : AfterAward}
      {saved : List Effect}
      {update : PlayerId → GameStateUpdate}
      {result : HandResult}
      (hSaves : Saves saved) :
      Says ⟨s, .awardAllPots next⟩ d
        (saved ++
          (sendsTo d.session.players
              (fun p => .gameStateUpdate (update p)) ++
            sendsTo d.session.players
              fun _ => .handResult result))
  | dealtAgain
      {s : GameSession}
      {d : Config} :
      Says ⟨s, .resume .tryStartNewHand⟩ d []
  | left
      {s : GameSession}
      {d : Config}
      {leaver : Leaver}
      {saved : List Effect}
      (hSaves : Saves saved)
      (hBusy : ¬ d.Idle) :
      Says ⟨s, .resume (.finishRemoval leaver)⟩ d saved
  | leftWaiting
      {s : GameSession}
      {d : Config}
      {leaver : Leaver}
      {saved told : List Effect}
      (hSaves : Saves saved)
      (hIdle : d.Idle)
      (hUpdates : d.session.Updates told) :
      Says ⟨s, .resume (.finishRemoval leaver)⟩ d
        (saved ++ told)
  | silent
      {s : GameSession}
      {d : Config} :
      Says ⟨s, .done⟩ d []
  | rejected
      {s : GameSession}
      {p : PlayerId}
      {code : ErrorCode} :
      Says ⟨s, .done⟩ ⟨s.sendError p code, .done⟩
        [.send p (.error (makeError code ""))]
  | acted
      {s : GameSession}
      {d : Config}
      {msg : ActionEvent}
      (hBusy : d.pending ≠ .done) :
      Says ⟨s, .done⟩ d
        (sendsTo s.players fun _ => .actionEvent msg)

namespace Config

/- What a step says is what it appends to the log. -/
def Adds
    (c d : Config) : Prop :=
  ∃ entries, d.session.log = c.session.log ++ entries ∧
    Says c d entries

variable {s t : GameSession}
variable {pending : Pending}

/- A step that leaves the log as it is. -/
theorem adds_of_silent
    {c d : Config}
    (hLog : d.session.log = c.session.log)
    (hSays : Says c d []) :
    c.Adds d :=
  ⟨[], by rw [hLog, List.append_nil], hSays⟩

theorem adds_of_start
    {shuffle : Shuffle}
    (hOk : s.start shuffle = .ok (t, pending)) :
    Adds ⟨s, .start⟩ ⟨t, pending⟩ := by
  unfold GameSession.start at hOk
  rcases Except.bind_eq_ok.mp hOk with ⟨dealt, hDealt, hRest⟩
  rcases Except.bind_eq_ok.mp hRest with
    ⟨posted, hPosted, hRest⟩
  rcases Except.bind_eq_ok.mp hRest with ⟨sent, hSent, hEnd⟩
  cases hEnd
  have hServed : s.Dealt shuffle dealt := hDealt
  have hLog := (hServed.log_frame hPosted).1
  rcases posted.openPreFlop.persistAllChips_saves with
    ⟨saved, hSaved, hSaves⟩
  rcases GameSession.updates_of_ok hSent with
    ⟨told, rfl, hUpdates⟩
  refine ⟨saved ++ told, ?_, Says.started hSaves hUpdates⟩
  change posted.openPreFlop.persistAllChips.log ++ told = _
  rw [hSaved, List.append_assoc, ← hLog]
  rfl

theorem adds_of_askCurrentPlayer
    (hOk : s.askCurrentPlayer = .ok (t, pending)) :
    Adds ⟨s, .askCurrentPlayer⟩ ⟨t, pending⟩ := by
  have hStep : Step ⟨s, .askCurrentPlayer⟩
      (.proceed .unshuffled) ⟨t, pending⟩ :=
    step_of_askCurrentPlayer hOk
  cases hStep with
  | asked hAt hAct =>
      exact ⟨_, rfl, Says.asked rfl hAt⟩
  | passedOver hAt hAct hCloses =>
      refine adds_of_silent rfl (Says.passedOver ?_)
      rcases hCloses with ⟨_, rfl⟩ | ⟨_, rfl⟩
      · simp
      · simp

theorem adds_of_dealStreet
    {u : GameSession}
    {count : Nat}
    {phase : GamePhase}
    (hLog : u.log = s.log)
    (hOk : u.dealStreet count phase = .ok (t, pending)) :
    Adds ⟨s, .nextPhase⟩ ⟨t, pending⟩ := by
  unfold GameSession.dealStreet at hOk
  rcases Except.bind_eq_ok.mp hOk with ⟨cards, _, hRest⟩
  rcases Except.bind_eq_ok.mp hRest with ⟨sent, hSent, hEnd⟩
  cases hEnd
  rcases GameSession.updates_of_ok hSent with
    ⟨told, rfl, hUpdates⟩
  refine ⟨told, ?_, Says.street rfl hUpdates⟩
  change u.log ++ told = _
  rw [hLog]

theorem adds_of_nextPhase
    (hOk : s.nextPhase = .ok (t, pending)) :
    Adds ⟨s, .nextPhase⟩ ⟨t, pending⟩ := by
  have hSilent : ∀ next, next ≠ .askCurrentPlayer →
      Adds ⟨s, .nextPhase⟩ ⟨s.clearBets, next⟩ :=
    fun next hNext => adds_of_silent rfl (Says.closed hNext)
  unfold GameSession.nextPhase at hOk
  split at hOk
  · cases hOk
    exact adds_of_silent rfl (Says.closed (by simp))
  · cases hPhase : s.phase with
    | preFlop =>
        rw [hPhase] at hOk
        exact adds_of_dealStreet (u := s.clearBets) rfl hOk
    | flop =>
        rw [hPhase] at hOk
        exact adds_of_dealStreet (u := s.clearBets) rfl hOk
    | turn =>
        rw [hPhase] at hOk
        exact adds_of_dealStreet (u := s.clearBets) rfl hOk
    | river =>
        rw [hPhase] at hOk
        cases hOk
        exact hSilent _ (by simp)
    | showdown =>
        rw [hPhase] at hOk
        cases hOk
        exact hSilent _ (by simp)

theorem adds_of_doShowdown
    (hOk : s.doShowdown = .ok (t, pending)) :
    Adds ⟨s, .doShowdown⟩ ⟨t, pending⟩ := by
  unfold GameSession.doShowdown at hOk
  rcases Except.bind_eq_ok.mp hOk with ⟨sent, hSent, hRest⟩
  rcases GameSession.updates_of_ok hSent with
    ⟨told, rfl, hUpdates⟩
  split at hRest
  · cases hRest
    exact ⟨told, rfl, Says.shownDown hUpdates⟩
  · split at hRest
    · cases hRest
      exact ⟨told, rfl, Says.shownDown hUpdates⟩
    · cases hRest
      exact ⟨told, rfl, Says.shownDown hUpdates⟩

/- Whoever is paid is made known to everybody. -/
theorem announced_of_ok
    {award : GameSession.Award}
    (hOk : GameSession.announceAward award = .ok t) :
    (award.winnerNames = [] ∧ t = award.session) ∨
      (award.winnerNames ≠ [] ∧
        t.players = award.session.players ∧
        t.chips = award.session.chips ∧
        ∃ saved, ∃ update : PlayerId → GameStateUpdate,
          Saves saved ∧
          t.log = award.session.log ++ (saved ++
            (sendsTo t.players
                (fun p => .gameStateUpdate (update p)) ++
              sendsTo t.players fun _ => .handResult
                ⟨award.winnerNames, award.totalAwarded,
                  award.winnerHandLabels⟩))) := by
  unfold GameSession.announceAward at hOk
  split at hOk
  next hNamed =>
    rcases Except.bind_eq_ok.mp hOk with ⟨sent, hSent, hEnd⟩
    cases hEnd
    rcases award.session.persistAllChips_saves with
      ⟨saved, hSaved, hSaves⟩
    have hSame : award.session.persistAllChips.players =
          award.session.players ∧
        award.session.persistAllChips.chips =
          award.session.chips := by
      rcases award.session.persistAllChips_quiet with
        ⟨_, _, hFrame, _⟩
      rw [hFrame]
      exact ⟨rfl, rfl⟩
    rcases GameSession.updates_of_ok hSent with
      ⟨told, rfl, active, states, _, _, rfl⟩
    refine Or.inr ⟨hNamed, hSame.1, hSame.2, saved,
      award.session.persistAllChips.updateFor active states,
      hSaves, ?_⟩
    rw [← List.append_assoc, ← List.append_assoc, ← hSaved]
    rfl
  next hNobody =>
    cases hOk
    exact Or.inl ⟨not_not.mp hNobody, rfl⟩

theorem adds_of_awardAllPots
    {next : AfterAward}
    (hOk : s.awardAllPots = .ok t) :
    Adds ⟨s, .awardAllPots next⟩ ⟨t, .resume next⟩ := by
  unfold GameSession.awardAllPots at hOk
  split at hOk
  · cases hOk
    exact adds_of_silent rfl Says.awardedNobody
  rcases Except.bind_eq_ok.mp hOk with ⟨award, hPaid, hRest⟩
  rcases Except.bind_eq_ok.mp hRest with ⟨told, hTold, hEnd⟩
  cases hEnd
  rcases GameSession.payPots_frame hPaid with ⟨chips, hFrame⟩
  have hLog : award.session.log = s.log := by
    rw [hFrame]
  rcases announced_of_ok hTold with
    ⟨_, hSame⟩ | ⟨_, _, _, saved, update, hSaves, hAdded⟩
  · exact adds_of_silent ((congrArg _ hSame).trans hLog)
      Says.awardedNobody
  · rw [hLog] at hAdded
    exact ⟨_, hAdded, Says.awarded hSaves⟩

/- The stack of whoever leaves is saved. -/
theorem adds_of_finishRemoval
    {leaver : Leaver}
    (hOk : s.finishRemoval leaver = .ok (t, pending)) :
    Adds ⟨s, .resume (.finishRemoval leaver)⟩
      ⟨t, pending⟩ := by
  rcases s.persistPlayerChips_saves leaver.player with
    ⟨saved, hSaved, hSaves⟩
  have hSilent : t.log =
        (s.persistPlayerChips leaver.player).log →
      ¬ Config.Idle ⟨t, pending⟩ →
      Adds ⟨s, .resume (.finishRemoval leaver)⟩
        ⟨t, pending⟩ := by
    intro hLog hBusy
    exact ⟨saved, hLog.trans hSaved, Says.left hSaves hBusy⟩
  unfold GameSession.finishRemoval at hOk
  dsimp only at hOk
  split at hOk
  · rename_i hEmpty
    cases hOk
    apply hSilent rfl
    rintro ⟨_, hEnough⟩
    unfold GameSession.hasEnoughPlayers at hEnough
    rw [hEmpty] at hEnough
    simp at hEnough
  split at hOk
  · rename_i hFew
    cases hOk
    exact hSilent rfl fun hIdle => hFew hIdle.2
  rename_i hEnough
  split at hOk
  · cases hOk
    exact hSilent rfl fun hIdle => by cases hIdle.1
  unfold GameSession.continueAfterPlayerLeft at hOk
  rcases Except.bind_eq_ok.mp hOk with ⟨complete, _, hRest⟩
  split at hRest
  · split at hRest
    · cases hRest
      exact hSilent rfl fun hIdle => by cases hIdle.1
    · cases hRest
      exact hSilent rfl fun hIdle => by cases hIdle.1
  · rcases Except.bind_eq_ok.mp hRest with ⟨sent, hSent, hEnd⟩
    cases hEnd
    rcases GameSession.updates_of_ok hSent with
      ⟨told, rfl, hUpdates⟩
    refine ⟨saved ++ told, ?_, Says.leftWaiting hSaves
      ⟨rfl, not_not.mp hEnough⟩ hUpdates⟩
    change (s.persistPlayerChips leaver.player).log ++ _ = _
    rw [hSaved, List.append_assoc]

/- An accepted action is announced to everybody. -/
theorem adds_of_afterAction
    {u : GameSession}
    {p : PlayerId}
    {action : Action}
    {amount : Option UInt32}
    (hLog : u.log = s.log)
    (hPlayers : u.players = s.players)
    (hOk : u.afterAction p action amount = .ok (t, pending)) :
    Adds ⟨s, .done⟩ ⟨t, pending⟩ := by
  refine ⟨sendsTo s.players fun _ => .actionEvent
    ⟨u.names p, action, amount⟩, ?_, Says.acted ?_⟩
  · rw [← hLog, ← hPlayers]
    unfold GameSession.afterAction at hOk
    dsimp only at hOk
    split at hOk
    · cases hOk
      rfl
    · rw [(closes_of_ok hOk).1]
      rfl
  · rcases afterAction_of_ok hOk with
      ⟨v, _, ⟨_, _, rfl⟩ |
        ⟨_, _, ⟨_, rfl⟩ | ⟨_, rfl⟩⟩⟩
    · simp
    · simp
    · simp

/- An action is announced, or its player is sent an error. -/
theorem adds_of_applyAction
    {connection : ConnId}
    {action : Action}
    {amount : Option UInt32}
    (hOk : s.applyAction connection action amount =
      .ok (t, pending)) :
    Adds ⟨s, .done⟩ ⟨t, pending⟩ := by
  unfold GameSession.applyAction at hOk
  split at hOk
  · cases hOk
    exact adds_of_silent rfl Says.silent
  · rcases Except.bind_eq_ok.mp hOk with ⟨onTurn, _, hRest⟩
    split at hRest
    · cases hRest
      exact ⟨_, rfl, Says.rejected⟩
    · split at hRest
      next hActs =>
        cases hRest
        exact ⟨_, rfl, Says.rejected⟩
      next hActs =>
        have hActs := acts_of_ok hActs
        exact adds_of_afterAction hActs.log_eq hActs.frame.1
          hRest

/- Nothing is said before the leaver's state is erased. -/
theorem adds_of_removePlayer
    {connection : ConnId}
    (hEnough : s.hasEnoughPlayers)
    (hOk : s.removePlayer connection = .ok (t, pending)) :
    Adds ⟨s, .done⟩ ⟨t, pending⟩ := by
  have hStep := step_of_removePlayer hEnough hOk
  cases hStep with
  | notSeated _ hNone => exact adds_of_silent rfl Says.silent
  | leaving _ hPlayer hAt hCurrent hWas hPending =>
      exact adds_of_silent rfl Says.silent

/- A new hand or none, nobody is told. -/
theorem adds_of_tryStartNewHand
    (s : GameSession) :
    Adds ⟨s, .resume .tryStartNewHand⟩
      ⟨s.tryStartNewHand.1, s.tryStartNewHand.2⟩ := by
  refine adds_of_silent ?_ Says.dealtAgain
  unfold GameSession.tryStartNewHand
  split
  · rfl
  · split
    · rfl
    · rfl

/- Every step adds to the log, and what it says. -/
theorem says_of_ok
    {c d : Config}
    {e : Event}
    (hOk : c.step e = .ok d) :
    c.Adds d := by
  rcases c with ⟨s, pending⟩
  rcases d with ⟨t, after⟩
  cases e with
  | proceed shuffle =>
      simp only [Config.step, Config.ofResult_eq_ok] at hOk
      cases pending with
      | done => cases hOk
      | start => exact adds_of_start hOk
      | askCurrentPlayer => exact adds_of_askCurrentPlayer hOk
      | nextPhase => exact adds_of_nextPhase hOk
      | doShowdown => exact adds_of_doShowdown hOk
      | handleSingleWinner =>
          cases hOk
          exact adds_of_silent rfl Says.singleWinner
      | awardAllPots next =>
          simp only [GameSession.body] at hOk
          cases hAward : s.awardAllPots with
          | error exn =>
              rw [hAward] at hOk
              cases hOk
          | ok u =>
              rw [hAward] at hOk
              cases hOk
              exact adds_of_awardAllPots hAward
      | resume next =>
          cases next with
          | tryStartNewHand =>
              have hAdds := adds_of_tryStartNewHand s
              rw [Except.ok.inj hOk] at hAdds
              exact hAdds
          | finishRemoval leaver =>
              exact adds_of_finishRemoval hOk
  | applyAction connection action amount =>
      simp only [Config.step] at hOk
      split at hOk
      next hIdle =>
        rw [Config.ofResult_eq_ok] at hOk
        have hDone : pending = .done := hIdle.1
        subst hDone
        exact adds_of_applyAction hOk
      next => cases hOk
  | removePlayer connection =>
      simp only [Config.step] at hOk
      split at hOk
      next hIdle =>
        rw [Config.ofResult_eq_ok] at hOk
        have hDone : pending = .done := hIdle.1
        subst hDone
        exact adds_of_removePlayer hIdle.2 hOk
      next => cases hOk

end Config

------------------------------------------------------------
-- Letters of the Game
------------------------------------------------------------

/- The messages that a session sends. -/
def InGame : ServerMessage → Prop
| .gameStateUpdate _ => True
| .yourTurn _ => True
| .error _ => True
| .handResult _ => True
| .actionEvent _ => True
| .welcome _ => False
| .roomList _ => False
| .joinedRoom _ => False
| .leftRoom _ => False

/- All letters are of these. -/
def AllInGame
    (letters : List (PlayerId × ServerMessage)) : Prop :=
  ∀ letter ∈ letters, InGame letter.2

theorem allInGame_nil :
    AllInGame [] := by
  simp [AllInGame]

theorem AllInGame.append
    {letters more : List (PlayerId × ServerMessage)}
    (hFirst : AllInGame letters)
    (hSecond : AllInGame more) :
    AllInGame (letters ++ more) := by
  intro letter hMem
  rcases List.mem_append.mp hMem with hEarlier | hLater
  · exact hFirst letter hEarlier
  · exact hSecond letter hLater

/- What everybody is sent is of one kind. -/
theorem forall_mem_toAll
    {P : ServerMessage → Prop}
    {players : List PlayerId}
    {msg : PlayerId → ServerMessage}
    (hEach : ∀ p, P (msg p)) :
    ∀ letter ∈ Mailbox.toAll players msg, P letter.2 := by
  intro letter hMem
  rcases List.mem_map.mp hMem with ⟨p, _, rfl⟩
  exact hEach p

theorem GameSession.Updates.forall_letter
    {P : ServerMessage → Prop}
    {s : GameSession}
    {told : List Effect}
    (hUpdates : s.Updates told)
    (hUpdate : ∀ update, P (.gameStateUpdate update)) :
    ∀ letter ∈ told.filterMap Effect.letter, P letter.2 := by
  rcases hUpdates with ⟨active, states, _, _, rfl⟩
  rw [letters_sendsTo]
  exact forall_mem_toAll fun _ => hUpdate _

/-
  The kinds of messages that a step can send.  An error is
  sent only where a call comes in and returns at once.
-/
theorem Says.forall_letter
    {P : ServerMessage → Prop}
    {c d : Config}
    {entries : List Effect}
    (hSays : Says c d entries)
    (hUpdate : ∀ update, P (.gameStateUpdate update))
    (hTurn : ∀ turn, P (.yourTurn turn))
    (hResult : ∀ result, P (.handResult result))
    (hEvent : ∀ event, P (.actionEvent event))
    (hError : c.pending = .done → d.pending = .done →
      ∀ error, P (.error error)) :
    ∀ letter ∈ entries.filterMap Effect.letter,
      P letter.2 := by
  cases hSays with
  | started hSaves hUpdates =>
      rw [List.filterMap_append, hSaves.letters_eq,
        List.nil_append]
      exact hUpdates.forall_letter hUpdate
  | asked hDone hAt => simp [Effect.letter, hTurn]
  | passedOver hBusy => simp
  | street hAsk hUpdates =>
      exact hUpdates.forall_letter hUpdate
  | closed hNext => simp
  | shownDown hUpdates =>
      exact hUpdates.forall_letter hUpdate
  | singleWinner => simp
  | awardedNobody => simp
  | awarded hSaves =>
      rw [List.filterMap_append, List.filterMap_append,
        hSaves.letters_eq, List.nil_append, letters_sendsTo,
        letters_sendsTo, List.forall_mem_append]
      exact ⟨forall_mem_toAll fun _ => hUpdate _,
        forall_mem_toAll fun _ => hResult _⟩
  | dealtAgain => simp
  | left hSaves hBusy =>
      rw [hSaves.letters_eq]
      simp
  | leftWaiting hSaves hIdle hUpdates =>
      rw [List.filterMap_append, hSaves.letters_eq,
        List.nil_append]
      exact hUpdates.forall_letter hUpdate
  | silent => simp
  | rejected => simp [Effect.letter, hError rfl rfl]
  | acted hBusy =>
      rw [letters_sendsTo]
      exact forall_mem_toAll fun _ => hEvent _

/- A session speaks of nothing but its game. -/
theorem Says.inGame
    {c d : Config}
    {entries : List Effect}
    (hSays : Says c d entries) :
    AllInGame (entries.filterMap Effect.letter) :=
  hSays.forall_letter (fun _ => trivial) (fun _ => trivial)
    (fun _ => trivial) (fun _ => trivial)
    (fun _ _ _ => trivial)

namespace GameSession

/- `t` has the log of `s`, and then speaks of its game. -/
def GoesOn
    (s t : GameSession) : Prop :=
  ∃ entries, t.log = s.log ++ entries ∧
    AllInGame (entries.filterMap Effect.letter)

variable {s t u : GameSession}

theorem GoesOn.refl
    (s : GameSession) :
    s.GoesOn s :=
  ⟨[], (List.append_nil _).symm, allInGame_nil⟩

theorem GoesOn.trans
    (hFirst : s.GoesOn t)
    (hSecond : t.GoesOn u) :
    s.GoesOn u := by
  rcases hFirst with ⟨entries, hLog, hGame⟩
  rcases hSecond with ⟨more, hMore, hGameMore⟩
  refine ⟨entries ++ more, ?_, ?_⟩
  · rw [hMore, hLog, List.append_assoc]
  · rw [List.filterMap_append]
    exact hGame.append hGameMore

end GameSession

namespace Config

theorem goesOn_of_ok
    {c d : Config}
    {e : Event}
    (hOk : c.step e = .ok d) :
    c.session.GoesOn d.session := by
  rcases says_of_ok hOk with ⟨entries, hLog, hSays⟩
  exact ⟨entries, hLog, hSays.inGame⟩

theorem goesOn_of_run
    {c d : Config}
    {later : List (Config × Event)}
    (run : Transition.Run Config.step c later d) :
    c.session.GoesOn d.session :=
  run.invariant_of_step
    (fun (d : Config) _ _
        (hGoes : c.session.GoesOn d.session) hOk =>
      hGoes.trans (goesOn_of_ok hOk))
    (GameSession.GoesOn.refl c.session)

end Config

end Server

end Poker

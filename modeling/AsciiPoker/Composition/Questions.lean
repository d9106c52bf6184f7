import AsciiPoker.Client.PokerUI
import AsciiPoker.Server.GameSession.Asking
import AsciiPoker.Server.GameSession.Offers
import AsciiPoker.Server.GameSession.Shown
import AsciiPoker.Server.Lobby.Views

/-
  Whom a call of the session gives the turn.

  A call sends at most one letter that bears a turn, and
  sends it to the player who is on turn when the call
  returns.

  Main declarations:
    * `turnsTo`, `Asks`
    * `Server.Config.finish_asks`
    * `Server.GameSession.applyAction_asks`,
      `Server.GameSession.removePlayer_asks`
    * `Server.GameSession.StaysOpen`,
      `Server.GameSession.onTurn_of_staysOpen`
-/

------------------------------------------------------------
-- Letters That Bear a Turn
------------------------------------------------------------

namespace Poker

open Protocol Server Client

/- How many letters that bear a turn somebody is sent. -/
def turnsTo
    (p : PlayerId)
    (letters : List (PlayerId × ServerMessage)) : Nat :=
  (Mailbox.picked some p letters).countP bearsTurn

@[simp] theorem turnsTo_nil
    (p : PlayerId) :
    turnsTo p [] = 0 := rfl

theorem turnsTo_append
    (p : PlayerId)
    (letters more : List (PlayerId × ServerMessage)) :
    turnsTo p (letters ++ more) =
      turnsTo p letters + turnsTo p more := by
  unfold turnsTo
  rw [Mailbox.picked_append, List.countP_append]

/- Nobody is given a turn. -/
def NoTurn
    (letters : List (PlayerId × ServerMessage)) : Prop :=
  ∀ p, turnsTo p letters = 0

theorem noTurn_nil :
    NoTurn [] :=
  fun p => turnsTo_nil p

theorem NoTurn.append
    {letters more : List (PlayerId × ServerMessage)}
    (hFirst : NoTurn letters)
    (hSecond : NoTurn more) :
    NoTurn (letters ++ more) := by
  intro p
  rw [turnsTo_append, hFirst p, hSecond p]

theorem noTurn_toAll
    {players : List PlayerId}
    {msg : PlayerId → ServerMessage}
    (hNone : ∀ p, bearsTurn (msg p) = false) :
    NoTurn (Mailbox.toAll players msg) := by
  intro p
  apply List.countP_eq_zero.mpr
  intro m hMem
  rcases List.mem_filterMap.mp hMem with
    ⟨⟨q, n⟩, hLetter, hPicked⟩
  rcases List.mem_map.mp hLetter with ⟨r, _, hEq⟩
  cases hEq
  split at hPicked
  · cases hPicked
    rw [hNone]
    exact Bool.false_ne_true
  · cases hPicked

/- One letter, to one player. -/
theorem turnsTo_singleton
    (p q : PlayerId)
    (msg : ServerMessage) :
    turnsTo p [(q, msg)] =
      if q = p ∧ bearsTurn msg = true then 1 else 0 := by
  unfold turnsTo Mailbox.picked
  by_cases hTo : q = p
  · cases hBears : bearsTurn msg with
    | true => simp [hTo, hBears]
    | false => simp [hTo, hBears]
  · simp [hTo]

theorem Server.GameSession.Updates.noTurn
    {s : GameSession}
    {told : List Effect}
    (hUpdates : s.Updates told) :
    NoTurn (told.filterMap Effect.letter) := by
  rcases hUpdates with ⟨active, states, _, _, rfl⟩
  rw [letters_sendsTo]
  exact noTurn_toAll fun _ => rfl

/- A call that is left to run asks one player or none. -/
theorem Server.Says.noTurn_or
    {c d : Config}
    {entries : List Effect}
    (hSays : Says c d entries)
    (hBusy : c.pending ≠ .done) :
    NoTurn (entries.filterMap Effect.letter) ∨
      (c.pending = .askCurrentPlayer ∧ d.pending = .done ∧
        ∃ p turn,
          c.session.players[c.session.currentPlayerIndex]? =
            some p ∧
          entries = [.send p (.yourTurn turn)]) := by
  cases hSays with
  | started hSaves hUpdates =>
      left
      rw [List.filterMap_append, hSaves.letters_eq]
      exact hUpdates.noTurn
  | asked hDone hAt =>
      exact Or.inr ⟨rfl, hDone, _, _, hAt, rfl⟩
  | passedOver hNext => exact Or.inl noTurn_nil
  | street hAsk hUpdates => exact Or.inl hUpdates.noTurn
  | closed hNext => exact Or.inl noTurn_nil
  | shownDown hUpdates => exact Or.inl hUpdates.noTurn
  | singleWinner => exact Or.inl noTurn_nil
  | awardedNobody => exact Or.inl noTurn_nil
  | awarded hSaves =>
      left
      rw [List.filterMap_append, List.filterMap_append,
        hSaves.letters_eq, letters_sendsTo, letters_sendsTo]
      apply noTurn_nil.append
      exact (noTurn_toAll fun _ => rfl).append
        (noTurn_toAll fun _ => rfl)
  | dealtAgain => exact Or.inl noTurn_nil
  | left hSaves hNext =>
      left
      rw [hSaves.letters_eq]
      exact noTurn_nil
  | leftWaiting hSaves hIdle hUpdates =>
      left
      rw [List.filterMap_append, hSaves.letters_eq]
      exact hUpdates.noTurn
  | silent => exact absurd rfl hBusy
  | rejected => exact absurd rfl hBusy
  | acted hNext => exact absurd rfl hBusy

------------------------------------------------------------
-- Calls That Are Finished
------------------------------------------------------------

/- The player is on turn in a hand that is in progress. -/
def Server.GameSession.OnTurn
    (s : GameSession)
    (p : PlayerId) : Prop :=
  s.InProgress ∧ s.players[s.currentPlayerIndex]? = some p

/- At most one letter bears a turn, to whoever has it now. -/
def Asks
    (s : GameSession)
    (letters : List (PlayerId × ServerMessage)) : Prop :=
  ∀ p, turnsTo p letters ≤ 1 ∧
    (turnsTo p letters ≠ 0 → s.OnTurn p)

theorem NoTurn.asks
    {letters : List (PlayerId × ServerMessage)}
    (hNone : NoTurn letters)
    (s : GameSession) :
    Asks s letters := by
  intro p
  rw [hNone p]
  exact ⟨Nat.zero_le 1, fun h => absurd rfl h⟩

theorem NoTurn.asks_snoc
    {letters : List (PlayerId × ServerMessage)}
    {s : GameSession}
    {q : PlayerId}
    (hNone : NoTurn letters)
    (hTurn : s.OnTurn q)
    (msg : ServerMessage) :
    Asks s (letters ++ [(q, msg)]) := by
  intro p
  rw [turnsTo_append, hNone p, turnsTo_singleton, Nat.zero_add]
  split
  · rename_i hTo
    rw [← hTo.1]
    exact ⟨Nat.le_refl 1, fun _ => hTurn⟩
  · exact ⟨Nat.zero_le 1, fun h => absurd rfl h⟩

namespace Server

namespace Config

/- What was said since `c` gives the turn where it is. -/
def AskedSince
    (c d : Config) : Prop :=
  ∃ entries, d.session.log = c.session.log ++ entries ∧
    if d.pending = .done then
      Asks d.session (entries.filterMap Effect.letter)
    else
      NoTurn (entries.filterMap Effect.letter)

/- A call that goes on may ask one player at its end. -/
theorem AskedSince.step
    {b c d : Config}
    {shuffle : Shuffle}
    (hAsked : b.AskedSince c)
    (hAsks : c.AsksInHand)
    (hOk : c.step (.proceed shuffle) = .ok d) :
    b.AskedSince d := by
  have hBusy : c.pending ≠ .done := by
    intro hDone
    simp only [Config.step, hDone, GameSession.body] at hOk
    cases hOk
  rcases hAsked with ⟨entries, hLog, hSaid⟩
  rw [if_neg hBusy] at hSaid
  rcases says_of_ok hOk with ⟨more, hMore, hSays⟩
  refine ⟨entries ++ more, ?_, ?_⟩
  · rw [hMore, hLog, List.append_assoc]
  rw [List.filterMap_append]
  rcases hSays.noTurn_or hBusy with
    hNone | ⟨hAsk, hDone, p, turn, hAt, rfl⟩
  · have hAll := NoTurn.append hSaid hNone
    split
    · exact hAll.asks d.session
    · exact hAll
  · rw [if_pos hDone]
    apply NoTurn.asks_snoc hSaid
    rcases c with ⟨s, pending⟩
    dsimp only at hAsk hAt
    subst hAsk
    have hStep := step_of_ok hOk
    cases hStep with
    | asked hHere hAct =>
        rw [hHere] at hAt
        cases hAt
        exact ⟨hAsks.inProgress hHere hAct, hHere⟩
    | passedOver hHere hAct hCloses =>
        rcases hCloses with ⟨_, rfl⟩ | ⟨_, rfl⟩
        · cases hDone
        · cases hDone

variable {c : Config}
variable {shuffles : List Shuffle}
variable {t : GameSession}

/- Nothing is run when nothing is left to run. -/
theorem finish_of_done
    (hDone : c.pending = .done)
    (hFinish : c.finish shuffles = .ok t) :
    t = c.session := by
  cases shuffles with
  | nil =>
      unfold finish at hFinish
      rw [if_pos hDone] at hFinish
      exact (Except.ok.inj hFinish).symm
  | cons shuffle rest =>
      unfold finish at hFinish
      rw [if_pos hDone] at hFinish
      exact (Except.ok.inj hFinish).symm

/- When a call returns, whoever was asked is on turn. -/
theorem finish_asks
    (hOrder : c.InOrder)
    (hAsks : c.AsksInHand)
    (hFinish : c.finish shuffles = .ok t) :
    AsksInHand ⟨t, .done⟩ ∧
      ∃ entries, t.log = c.session.log ++ entries ∧
        Asks t (entries.filterMap Effect.letter) := by
  rcases finish_run hFinish with ⟨later, run, hProceeds⟩
  let Inv : Config → Prop := fun d =>
    d.InOrder ∧ d.AsksInHand ∧ c.AskedSince d
  have hKeep : ∀ d e f, Inv d →
      (∃ shuffle, e = .proceed shuffle) →
      d.step e = .ok f → Inv f := by
    rintro d e f ⟨hHere, hInHand, hAsked⟩ ⟨shuffle, rfl⟩ hOk
    refine ⟨hHere.step hOk, ?_, hAsked.step hInHand hOk⟩
    exact hInHand.step hHere (by simp) (step_of_ok hOk)
  have hStart : c.AskedSince c := by
    refine ⟨[], (List.append_nil _).symm, ?_⟩
    split
    · exact noTurn_nil.asks c.session
    · exact noTurn_nil
  rcases run.invariant hKeep hProceeds
      ⟨hOrder, hAsks, hStart⟩ with
    ⟨_, hInHand, entries, hLog, hSaid⟩
  exact ⟨hInHand, entries, hLog, hSaid⟩

end Config

------------------------------------------------------------
-- Calls of a Session at Rest
------------------------------------------------------------

namespace GameSession

variable {s t called : GameSession}
variable {p q : PlayerId}
variable {connection : ConnId}
variable {pending : Pending}
variable {shuffles : List Shuffle}

/- What a call and the rest of it say together. -/
theorem asks_of_called
    {entries : List Effect}
    (hOrder : Config.InOrder ⟨called, pending⟩)
    (hAsks : Config.AsksInHand ⟨called, pending⟩)
    (hFinish : Config.finish ⟨called, pending⟩ shuffles =
      .ok t)
    (hLog : called.log = s.log ++ entries)
    (hNone : NoTurn (entries.filterMap Effect.letter)) :
    Config.AsksInHand ⟨t, .done⟩ ∧
      ∃ entries, t.log = s.log ++ entries ∧
        Asks t (entries.filterMap Effect.letter) := by
  rcases Config.finish_asks hOrder hAsks hFinish with
    ⟨hInHand, more, hMore, hSaid⟩
  refine ⟨hInHand, entries ++ more, ?_, ?_⟩
  · rw [hMore, hLog, List.append_assoc]
  · intro r
    rw [List.filterMap_append, turnsTo_append, hNone r,
      Nat.zero_add]
    exact hSaid r

/-
  The player on turn acts: he is asked again with an error,
  or the turn goes on to whoever is asked last.
-/
theorem applyAction_asks
    {action : Action}
    {amount : Option UInt32}
    (hOrder : Config.InOrder ⟨s, .done⟩)
    (hAsks : Config.AsksInHand ⟨s, .done⟩)
    (hIdle : Config.Idle ⟨s, .done⟩)
    (hPlayer : s.getPlayer connection = some p)
    (hTurn : s.OnTurn p)
    (hCall : s.applyAction connection action amount =
      .ok (called, pending))
    (hFinish : Config.finish ⟨called, pending⟩ shuffles =
      .ok t) :
    Config.AsksInHand ⟨t, .done⟩ ∧
      ∃ entries, t.log = s.log ++ entries ∧
        Asks t (entries.filterMap Effect.letter) := by
  have hOk : Config.step ⟨s, .done⟩
      (.applyAction connection action amount) =
        .ok ⟨called, pending⟩ := by
    simp [Config.step, hIdle, hCall]
  have hInHand := hAsks.step hOrder
    (fun _ _ _ _ => hTurn.1.1) (step_of_ok hOk)
  have hAfter := hOrder.step hOk
  cases hActs : s.performAction p action amount with
  | ok u =>
      rw [applyAction_of_performed hPlayer hTurn.2 hActs]
        at hCall
      have hLog := afterAction_log hCall
      have hActs := acts_of_ok hActs
      rw [hActs.log_eq] at hLog
      apply asks_of_called hAfter hInHand hFinish hLog
      have hLetters := letters_sendsTo u.players fun _ =>
        .actionEvent ⟨u.names p, action, amount⟩
      unfold sendsTo at hLetters
      rw [hLetters]
      exact noTurn_toAll fun _ => rfl
  | error code =>
      have hRejected : s.applyAction connection action amount =
          .ok (s.sendError p code, .done) := by
        unfold applyAction playerAt
        rw [hPlayer, hTurn.2]
        simp [require, bind, Except.bind, hActs]
      rw [hRejected] at hCall
      cases hCall
      have hSame : t = s.sendError p code :=
        Config.finish_of_done rfl hFinish
      subst hSame
      refine ⟨hInHand, [.send p (.error (makeError code ""))],
        rfl, ?_⟩
      exact noTurn_nil.asks_snoc hTurn _

/- Whoever leaves, the player asked last is on turn. -/
theorem removePlayer_asks
    (hOrder : Config.InOrder ⟨s, .done⟩)
    (hAsks : Config.AsksInHand ⟨s, .done⟩)
    (hIdle : Config.Idle ⟨s, .done⟩)
    (hCall : s.removePlayer connection =
      .ok (called, pending))
    (hFinish : Config.finish ⟨called, pending⟩ shuffles =
      .ok t) :
    Config.AsksInHand ⟨t, .done⟩ ∧
      ∃ entries, t.log = s.log ++ entries ∧
        Asks t (entries.filterMap Effect.letter) := by
  have hOk : Config.step ⟨s, .done⟩
      (.removePlayer connection) =
        .ok ⟨called, pending⟩ := by
    simp [Config.step, hIdle, hCall]
  have hStep := step_of_ok hOk
  have hInHand := hAsks.step hOrder (by simp) hStep
  have hLog : called.log = s.log ++ [] := by
    rw [List.append_nil]
    cases hStep with
    | notSeated _ hNone => rfl
    | leaving _ hPlayer hAt hCurrent hWas hPending => rfl
  exact asks_of_called (hOrder.step hOk) hInHand hFinish hLog
    noTurn_nil

------------------------------------------------------------
-- Departures That Leave the Turn
------------------------------------------------------------

/-
  The betting round stays open without a player, and the
  index repair will not shift the seat on turn.
-/
def StaysOpen
    (s : GameSession)
    (q : PlayerId) : Prop :=
  (s.foldLeaver q).isRoundComplete = .ok false ∧
    s.currentPlayerIndex + 1 < s.players.length

/- The seat on turn is that of the same player. -/
theorem vacate_current
    {leaver : Leaver}
    (hTurn : s.players[s.currentPlayerIndex]? = some p)
    (hNe : p ≠ leaver.player)
    (hAt : s.players[leaver.removedIndex]? =
      some leaver.player)
    (hNotLast : s.currentPlayerIndex + 1 < s.players.length) :
    (s.vacate leaver).players[
      (s.vacate leaver).currentPlayerIndex]? = some p := by
  have hSeat := (List.getElem?_eq_some_iff.mp hAt).1
  have hOther :
      s.currentPlayerIndex ≠ leaver.removedIndex := by
    intro hSame
    rw [hSame, hAt] at hTurn
    exact hNe (Option.some.inj hTurn).symm
  have hIndex := getElem?_fixIndex hTurn hOther hSeat
    (by omega)
  rcases s.vacate_eq leaver with ⟨_, _, hEq, _⟩
  rw [hEq]
  exact hIndex

/- An open round is only waited out if nobody asks. -/
theorem onTurn_of_finishRemoval
    {leaver : Leaver}
    {shuffle : Shuffle}
    {d : Config}
    (hOrder : Config.InOrder
      ⟨s, .resume (.finishRemoval leaver)⟩)
    (hOther : leaver.wasCurrent = false)
    (hTurn : s.OnTurn p)
    (hNe : p ≠ leaver.player)
    (hOpen : s.isRoundComplete ≠ .ok true)
    (hNotLast : s.currentPlayerIndex + 1 < s.players.length)
    (hOk : Config.step ⟨s, .resume (.finishRemoval leaver)⟩
      (.proceed shuffle) = .ok d)
    (hEnough : d.pending = .done →
      d.session.hasEnoughPlayers) :
    d.pending = .done ∧ d.session.OnTurn p := by
  rcases hOrder.1.leaver leaver rfl with ⟨hAt, hFolded⟩
  have hNodup : s.players.Nodup := hOrder.1.nodup
  have hCount :=
    countActivePlayers_vacate hNodup hAt hFolded
  have hComplete := complete_vacate hNodup hAt hFolded
  have hTwo : 2 ≤ s.countActivePlayers := hTurn.1.2
  have hStep := step_of_ok hOk
  cases hStep with
  | leftFew hFew hErased => exact absurd (hEnough rfl) hFew
  | leftOneActive hMany hOne =>
      rw [hCount] at hOne
      omega
  | leftClosing hMany hSome hCloses =>
      rcases hCloses with ⟨hShut, rfl⟩ | ⟨_, rfl⟩
      · exact absurd (hComplete.mp hShut) hOpen
      · simp only [Config.step, Config.ofResult_eq_ok] at hOk
        rw [Config.wasCurrent_of_asks hOk] at hOther
        cases hOther
  | leftWaiting hMany hSome hNot hWaits hQuiet =>
      rcases hQuiet with ⟨_, _, rfl, _⟩
      refine ⟨rfl, ⟨?_, ?_⟩, ?_⟩
      · change (s.vacate leaver).phase ≠ _
        rw [vacate_phase]
        exact hTurn.1.1
      · change 2 ≤ (s.vacate leaver).countActivePlayers
        rw [hCount]
        exact hTwo
      · exact vacate_current hTurn.2 hNe hAt hNotLast

/-
  While the round stays open, a departure leaves the turn
  with whoever has it and gives nobody another.
-/
theorem onTurn_of_staysOpen
    (hOrder : Config.InOrder ⟨s, .done⟩)
    (hIdle : Config.Idle ⟨s, .done⟩)
    (hPlayer : s.getPlayer connection = some q)
    (hSeated : q ∈ s.players)
    (hTurn : s.OnTurn p)
    (hNe : p ≠ q)
    (hStays : s.StaysOpen q)
    (hCall : s.removePlayer connection =
      .ok (called, pending))
    (hFinish : Config.finish ⟨called, pending⟩ shuffles =
      .ok t)
    (hEnough : t.hasEnoughPlayers) :
    t.OnTurn p ∧ ∃ entries, t.log = s.log ++ entries ∧
      NoTurn (entries.filterMap Effect.letter) := by
  have hOk : Config.step ⟨s, .done⟩
      (.removePlayer connection) =
        .ok ⟨called, pending⟩ := by
    simp [Config.step, hIdle, hCall]
  have hAfter := hOrder.step hOk
  have hTwo := two_le_of_open hStays.1
  have hStep := step_of_ok hOk
  cases hStep with
  | notSeated _ hNone =>
      exact absurd hSeated (hNone q hPlayer)
  | @leaving _ l current _ hMany hHere hAt hCurrent hWas
      hPending =>
      rw [hPlayer] at hHere
      cases hHere
      rw [hTurn.2] at hCurrent
      cases hCurrent
      rcases hPending with ⟨hOne, _⟩ | ⟨_, rfl⟩
      · omega
      cases shuffles with
      | nil => cases hFinish
      | cons shuffle rest =>
          unfold Config.finish at hFinish
          rw [if_neg (by simp)] at hFinish
          cases hNext : Config.step ⟨s.foldLeaver l.player,
              .resume (.finishRemoval l)⟩
              (.proceed shuffle) with
          | error exn =>
              rw [hNext] at hFinish
              cases hFinish
          | ok d =>
              rw [hNext] at hFinish
              have hEnd : d.pending = .done → t = d.session :=
                fun hDone =>
                  Config.finish_of_done hDone hFinish
              have hFolded : (s.foldLeaver l.player).OnTurn p :=
                ⟨⟨hTurn.1.1, hTwo⟩, hTurn.2⟩
              have hOpen :
                  (s.foldLeaver l.player).isRoundComplete ≠
                    .ok true := by
                rw [hStays.1]
                simp
              rcases onTurn_of_finishRemoval hAfter
                  (hWas.trans (decide_eq_false hNe)) hFolded
                  hNe hOpen hStays.2 hNext
                  (fun hDone => hEnd hDone ▸ hEnough) with
                ⟨hDone, hHere⟩
              rw [← hEnd hDone] at hHere
              rcases Config.says_of_ok hNext with
                ⟨entries, hLog, hSays⟩
              rw [← hEnd hDone] at hLog
              refine ⟨hHere, entries, hLog, ?_⟩
              rcases hSays.noTurn_or (by simp) with
                hNone | ⟨hAsk, _⟩
              · exact hNone
              · cases hAsk

end GameSession

end Server

end Poker

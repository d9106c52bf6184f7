import AsciiPoker.Server.GameSession.Progress
import AsciiPoker.Server.GameSession.Script

/-
  Actions that are turned down.

  Every check of `apply_action` comes before its first
  change, so an action that is answered with an `Error`
  leaves the session as it was.  A raise that passes the
  checks costs what it says, with no wrap-around.

  Main declarations:
    * `GameSession.applyAction_cases`, `GameSession.Raised`
    * `Config.Calls`, `Config.sentSince`, `Config.AnswersError`
    * `Config.TurnsDown`
    * `Table.Run.actions`
-/

namespace Poker

namespace Server

open Protocol

------------------------------------------------------------
-- What `apply_action` Can Do
------------------------------------------------------------

namespace GameSession

variable {s t : GameSession}
variable {p : PlayerId}
variable {action : Action}
variable {amount : Option UInt32}
variable {connection : ConnId}
variable {pending : Pending}

/- The codes that a player on turn can be answered with. -/
theorem code_of_error
    {code : ErrorCode}
    (hError : s.performAction p action amount =
      .error code) :
    code ∈ [.cannotCheck, .invalidRaise, .notEnoughChips] := by
  cases action with
  | fold => cases hError
  | check =>
      simp only [performAction] at hError
      split at hError
      · cases hError
        simp
      · cases hError
  | call =>
      simp only [performAction] at hError
      split at hError
      · cases hError
      · cases hError
  | raise =>
      cases amount with
      | none =>
          cases hError
          simp
      | some total =>
          simp only [performAction, applyRaise] at hError
          split at hError
          · cases hError
            simp
          split at hError
          · cases hError
            simp
          split at hError
          · cases hError
            simp
          split at hError
          · cases hError
            simp
          split at hError
          · cases hError
          · cases hError

/- An accepted action leaves a call to run. -/
theorem afterAction_pending_ne_done
    (hOk : s.afterAction p action amount =
      .ok (t, pending)) :
    pending ≠ .done := by
  rcases afterAction_of_ok hOk with
    ⟨u, _, ⟨_, _, rfl⟩ | ⟨_, _, hCloses⟩⟩
  · simp
  · rcases hCloses with ⟨_, rfl⟩ | ⟨_, rfl⟩
    · simp
    · simp

/-
  Every exit of `apply_action`: nobody is known, somebody is
  answered with an error, or the action is accepted.
-/
theorem applyAction_cases
    (hOk : s.applyAction connection action amount =
      .ok (t, pending)) :
    (s.getPlayer connection = none ∧ t = s ∧
        pending = .done) ∨
      (∃ p code, s.getPlayer connection = some p ∧
        code ∈ [ErrorCode.notYourTurn, .cannotCheck,
          .invalidRaise, .notEnoughChips] ∧
        t = s.sendError p code ∧ pending = .done) ∨
      (∃ p u, s.getPlayer connection = some p ∧
        s.players[s.currentPlayerIndex]? = some p ∧
        s.Acts p action amount u ∧
        u.afterAction p action amount = .ok (t, pending)) := by
  unfold applyAction at hOk
  cases hPlayer : s.getPlayer connection with
  | none =>
      rw [hPlayer] at hOk
      cases hOk
      exact Or.inl ⟨rfl, rfl, rfl⟩
  | some p =>
      right
      rw [hPlayer] at hOk
      rcases Except.bind_eq_ok.mp hOk with
        ⟨onTurn, hAt, hRest⟩
      rw [playerAt_eq_ok] at hAt
      by_cases hTurn : onTurn = p
      · subst hTurn
        rw [if_neg (not_not.mpr rfl)] at hRest
        cases hActs : s.performAction onTurn action amount with
        | error code =>
            rw [hActs] at hRest
            cases hRest
            exact Or.inl ⟨_, code, rfl,
              List.mem_cons_of_mem _ (code_of_error hActs),
              rfl, rfl⟩
        | ok u =>
            rw [hActs] at hRest
            exact Or.inr ⟨_, u, rfl, hAt, acts_of_ok hActs,
              hRest⟩
      · rw [if_pos hTurn] at hRest
        cases hRest
        exact Or.inl ⟨p, .notYourTurn, rfl, by simp, rfl, rfl⟩

/-
  A raise to `total` that leads from `s` to `t`: it is above
  the bet to call and above the player's own, he can pay the
  difference, and just that is taken from his stack.
-/
structure Raised
    (s t : GameSession)
    (p : PlayerId)
    (total : UInt32) : Prop where
  higher : s.currentBet < total
  above : s.roundBets.get p < total
  covered : total.toNat - (s.roundBets.get p).toNat ≤
    (s.chips.get p).toNat
  taken : (t.chips.get p).toNat +
    (total.toNat - (s.roundBets.get p).toNat) =
      (s.chips.get p).toNat
  raised : t.roundBets.get p = total
  others : ∀ q, q ≠ p → t.chips.get q = s.chips.get q

/- An accepted raise, before its round goes on. -/
theorem raised_of_acts
    {u : GameSession}
    (hActs : s.Acts p .raise amount u)
    (hOk : u.afterAction p .raise amount =
      .ok (t, pending)) :
    ∃ total, amount = some total ∧ s.Raised t p total := by
  have hSame : t.chips = u.chips ∧
      t.roundBets = u.roundBets := by
    rcases afterAction_of_ok hOk with
      ⟨v, ⟨_, _, rfl, _⟩, ⟨_, rfl, _⟩ | ⟨_, rfl, _⟩⟩
    · exact ⟨rfl, rfl⟩
    · exact ⟨rfl, rfl⟩
  cases hActs with
  | @raise total hHigher hMore hMinimum hEnough =>
      have hCost : (total - s.roundBets.get p).toNat =
          total.toNat - (s.roundBets.get p).toNat := by
        have hSplit := UInt32.toNat_sub_add_toNat
          (UInt32.le_of_lt hMore)
        omega
      have hCovered : total.toNat -
          (s.roundBets.get p).toNat ≤ (s.chips.get p).toNat := by
        rw [← hCost]
        exact UInt32.le_iff_toNat_le.mp hEnough
      have hTaken : t.chips = s.chips.set p
          (s.chips.get p - (total - s.roundBets.get p)) := by
        rw [hSame.1]
        dsimp only
        rw [contribute_chips, actualAmount_eq hEnough]
      refine ⟨total, rfl, hHigher, hMore, hCovered, ?_, ?_, ?_⟩
      · rw [hTaken, KeyMap.get_set_self, ← hCost]
        exact UInt32.toNat_sub_add_toNat hEnough
      · rw [hSame.2]
        dsimp only
        rw [contribute_roundBets, KeyMap.get_set_self,
          actualAmount_eq hEnough, UInt32.add_comm,
          UInt32.sub_add_cancel]
      · intro q hq
        rw [hTaken, KeyMap.get_set_of_ne _ _ hq]

end GameSession

------------------------------------------------------------
-- Whole Calls
------------------------------------------------------------

namespace Config

/-
  A call of the room: its own step leads from `c` to `f`, and
  the calls that it makes in turn lead on to `d`.
-/
structure Calls
    (c : Config)
    (e : Event)
    (f : Config)
    (later : List (Config × Event))
    (d : Config) : Prop where
  called : c.step e = .ok f
  run : Transition.Run Config.step f later d
  proceeds : ∀ x ∈ later, ∃ shuffle, x.2 = .proceed shuffle

/- What the session sends on the way from `c` to `d`. -/
def sentSince
    (c d : Config) : List (PlayerId × ServerMessage) :=
  (d.session.log.drop c.session.log.length).filterMap
    Effect.letter

/- Somebody is sent an `Error` on the way from `c` to `d`. -/
def AnswersError
    (c d : Config) : Prop :=
  ∃ letter ∈ c.sentSince d, ∃ error,
    letter.2 = .error error

/-
  The player of the connection is sent one of the errors of
  `apply_action`.  That and nothing else is done.
-/
def TurnsDown
    (c : Config)
    (connection : ConnId)
    (d : Config) : Prop :=
  ∃ p, c.session.getPlayer connection = some p ∧
    ∃ code ∈ [ErrorCode.notYourTurn, .cannotCheck,
        .invalidRaise, .notEnoughChips],
      d.pending = .done ∧
        d.session =
          { c.session with
            log := c.session.log ++
              [.send p (.error (makeError code ""))] }

/- `d` has the log of `c`, and then no error. -/
def SparesErrors
    (c d : Config) : Prop :=
  ∃ entries, d.session.log = c.session.log ++ entries ∧
    ∀ letter ∈ entries.filterMap Effect.letter,
      ∀ error, letter.2 ≠ .error error

variable {c d f : Config}
variable {e : Event}
variable {later : List (Config × Event)}

theorem SparesErrors.not_answersError
    (hSpares : c.SparesErrors d) :
    ¬ c.AnswersError d := by
  rintro ⟨letter, hMem, error, hError⟩
  rcases hSpares with ⟨entries, hLog, hNone⟩
  unfold sentSince at hMem
  rw [hLog, List.drop_left] at hMem
  exact hNone letter hMem error hError

/- A step that does not return at once sends no error. -/
theorem sparesErrors_of_ok
    (hOk : c.step e = .ok d)
    (hBusy : c.pending = .done → d.pending ≠ .done) :
    c.SparesErrors d := by
  rcases says_of_ok hOk with ⟨entries, hLog, hSays⟩
  refine ⟨entries, hLog, ?_⟩
  exact hSays.forall_letter
    (P := fun msg => ∀ error, msg ≠ .error error)
    (by simp) (by simp) (by simp) (by simp)
    (fun hIdle hDone => absurd hDone (hBusy hIdle))

theorem SparesErrors.trans
    (hFirst : c.SparesErrors f)
    (hSecond : f.SparesErrors d) :
    c.SparesErrors d := by
  rcases hFirst with ⟨entries, hLog, hNone⟩
  rcases hSecond with ⟨more, hMore, hNoneMore⟩
  refine ⟨entries ++ more, ?_, ?_⟩
  · rw [hMore, hLog, List.append_assoc]
  · rw [List.filterMap_append, List.forall_mem_append]
    exact ⟨hNone, hNoneMore⟩

/- Nothing is left to run once a call has returned. -/
theorem not_proceed_of_done
    {shuffle : Shuffle}
    (hDone : c.pending = .done) :
    c.step (.proceed shuffle) ≠ .ok d := by
  rcases c with ⟨s, pending⟩
  subst hDone
  rintro ⟨⟩

/- The calls that follow an accepted one send no error. -/
theorem Calls.sparesErrors
    (hCalls : c.Calls e f later d)
    (hBusy : f.pending ≠ .done) :
    c.SparesErrors d := by
  have hKeep : ∀ (d : Config) (e : Event) (u : Config),
      c.SparesErrors d → (∃ shuffle, e = .proceed shuffle) →
      d.step e = .ok u → c.SparesErrors u := by
    rintro d _ u hSpares ⟨shuffle, rfl⟩ hOk
    refine hSpares.trans (sparesErrors_of_ok hOk ?_)
    exact fun hDone => absurd hOk (not_proceed_of_done hDone)
  exact hCalls.run.invariant hKeep hCalls.proceeds
    (sparesErrors_of_ok hCalls.called fun _ => hBusy)

/- A call that has returned makes no other call. -/
theorem Calls.eq_of_done
    (hCalls : c.Calls e f later d)
    (hDone : f.pending = .done) :
    later = [] ∧ d = f := by
  rcases hCalls.run.first_step with
    hNone | ⟨e', u, rest, rfl, hOk, _⟩
  · exact hNone
  · rcases hCalls.proceeds _ (List.mem_cons_self ..) with
      ⟨shuffle, hProceed⟩
    dsimp only at hProceed
    subst hProceed
    exact absurd hOk (not_proceed_of_done hDone)

end Config

------------------------------------------------------------
-- Runs
------------------------------------------------------------

/-
  Wherever a session waits for its players, an action is
  taken without a failure, and what comes of it.  Everything
  that the checks look up is there, so that looking it up
  adds nothing to the maps.
-/
theorem Table.Run.actions
    {table : Table}
    {trace : List (Config × Event)}
    {c : Config}
    (run : table.Run trace c)
    (hIdle : c.Idle)
    (connection : ConnId)
    (action : Action)
    (amount : Option UInt32) :
    (∀ p ∈ c.session.players,
        (c.session.chips.find p).isSome ∧
          (c.session.roundBets.find p).isSome) ∧
      (∃ f, c.step (.applyAction connection action amount) =
        .ok f) ∧
      ∀ f later d,
        c.Calls (.applyAction connection action amount) f
          later d →
        (c.session.getPlayer connection = none →
          later = [] ∧ d = c) ∧
        (c.AnswersError d →
          later = [] ∧ c.TurnsDown connection d) ∧
        (¬ c.AnswersError d → action = .raise →
          ∀ p, c.session.getPlayer connection = some p →
            ∃ total, amount = some total ∧
              c.session.Raised f.session p total) := by
  have hHere : c.session.Furnished := by
    rcases c with ⟨s, pending⟩
    exact run.furnished.session
      (by rw [show pending = .done from hIdle.1]; simp)
      (Or.inr hIdle.2)
  have hStep : c.step (.applyAction connection action amount) =
      Config.ofResult
        (c.session.applyAction connection action amount) :=
    if_pos hIdle
  refine ⟨?_, ?_, ?_⟩
  · intro p hp
    exact ⟨hHere.stocked.chips p hp,
      hHere.stocked.roundBets p hp⟩
  · rw [hStep]
    exact (Config.ofResult_failsOnly
      (hHere.applyAction_failsOnly connection action
        amount)).exists_ok
  intro f later d hCalls
  have hOk := hCalls.called
  rw [hStep, Config.ofResult_eq_ok] at hOk
  rcases GameSession.applyAction_cases hOk with
    ⟨hNone, hSame, hDone⟩ |
      ⟨p, code, hPlayer, hCode, hSent, hDone⟩ |
      ⟨p, u, hPlayer, _, hActs, hAfter⟩
  · rcases hCalls.eq_of_done hDone with ⟨hEnd, rfl⟩
    have hWhole : d = c := by
      rcases c with ⟨s, pending⟩
      rcases d with ⟨t, after⟩
      rw [Config.mk.injEq]
      exact ⟨hSame, hDone.trans hIdle.1.symm⟩
    subst hWhole
    refine ⟨fun _ => ⟨hEnd, rfl⟩, ?_, ?_⟩
    · rintro ⟨letter, hMem, _⟩
      unfold Config.sentSince at hMem
      rw [List.drop_length] at hMem
      cases hMem
    · intro _ _ p hPlayer
      rw [hNone] at hPlayer
      cases hPlayer
  · rcases hCalls.eq_of_done hDone with ⟨hEnd, rfl⟩
    refine ⟨?_, ?_, ?_⟩
    · intro hNone
      rw [hNone] at hPlayer
      cases hPlayer
    · intro _
      exact ⟨hEnd, p, hPlayer, code, hCode, hDone, hSent⟩
    · intro hSilent
      refine absurd ?_ hSilent
      refine ⟨(p, .error (makeError code "")), ?_, _, rfl⟩
      unfold Config.sentSince
      rw [hSent]
      simp [GameSession.sendError, GameSession.send,
        Effect.letter]
  · have hSpares := hCalls.sparesErrors
      (GameSession.afterAction_pending_ne_done hAfter)
    refine ⟨?_, ?_, ?_⟩
    · intro hNone
      rw [hNone] at hPlayer
      cases hPlayer
    · intro hAnswers
      exact absurd hAnswers hSpares.not_answersError
    · rintro _ rfl q hq
      rw [hPlayer] at hq
      cases hq
      exact GameSession.raised_of_acts hActs hAfter

/- A raise to more than the player on turn has. -/
theorem Table.raiseTooHigh_turnsDown :
    ∃ trace c f,
      (numbered [1000, 1000] (by decide)).Run trace c ∧
      c.step (.raiseTo 0 5000) = .ok f ∧
      c.TurnsDown 0 f := by
  rcases exists_run (numbered [1000, 1000] (by decide))
      (Event.proceeds 2)
      (fun _ c =>
        decide c.Idle &&
          (c.step (.raiseTo 0 5000)).toOption.any fun f =>
            c.sentSince f =
              [(0, .error (makeError .notEnoughChips ""))])
      (by decide +kernel) with
    ⟨trace, c, run, hTest⟩
  rw [Bool.and_eq_true] at hTest
  have hIdle := of_decide_eq_true hTest.1
  have hActions := run.actions hIdle 0 .raise (some 5000)
  rcases hActions.2.1 with ⟨f, hOk⟩
  have hSent := hTest.2
  rw [Event.raiseTo, hOk] at hSent
  rcases hActions.2.2 f [] f ⟨hOk, Transition.Run.nil, by simp⟩
    with ⟨_, hTurned, _⟩
  refine ⟨trace, c, f, run, hOk, (hTurned ?_).2⟩
  refine ⟨(0, .error (makeError .notEnoughChips "")), ?_,
    _, rfl⟩
  rw [of_decide_eq_true hSent]
  exact List.mem_singleton_self _

end Server

end Poker

import AsciiPoker.Server.GameSession.Alike

/-
  What a player is told of the cards that he does not hold:
  nothing, until the hand comes to its showdown.

  Main declarations:
    * `Config.EndsHand`, `Config.Rests`, `Config.FaceDown`
    * `GameSession.Alike.body`, `Config.AlikeTo.step`
    * `GameSession.SameTable.handHidden`
-/

namespace Poker

namespace Server

open Protocol

open GameSession (AlikeResult Alike)

------------------------------------------------------------
-- Before the Showdown
------------------------------------------------------------

/- Whether a label of the machine is a call of the room. -/
def Event.isCall : Event → Bool
| .proceed _ => false
| .applyAction _ _ _ => true
| .removePlayer _ => true

namespace Config

/- The hand comes to its showdown, or the next one begins. -/
def EndsHand
    (c : Config) : Prop :=
  c.pending = .doShowdown ∨ c.pending = .start

instance (c : Config) : Decidable c.EndsHand :=
  inferInstanceAs (Decidable (_ ∨ _))

/- Between two calls of a hand, or at its end. -/
def Rests
    (c : Config) : Prop :=
  c.pending = .done ∨ c.EndsHand

instance (c : Config) : Decidable c.Rests :=
  inferInstanceAs (Decidable (_ ∨ _))

/- No hand was shown; only a sole winner is being paid. -/
structure FaceDown
    (c : Config) : Prop where
  phase : c.session.phase ≠ .showdown
  sole : c.pending.settles = true →
    c.session.countActivePlayers = 1

end Config

/- A hand is dealt face down. -/
theorem Config.dealt_faceDown
    {s : GameSession}
    {shuffle : Shuffle}
    {d : Config}
    (hStep : Step ⟨s, .start⟩ (.proceed shuffle) d) :
    d.FaceDown := by
  cases hStep with
  | started hDealt hPosted hQuiet =>
      rcases hQuiet with ⟨_, _, rfl, _⟩
      exact ⟨by simp [GameSession.openPreFlop],
        by simp [Pending.settles]⟩

/- Until the showdown every hand stays face down. -/
theorem Config.FaceDown.step
    {c d : Config}
    {e : Event}
    (hFaceDown : c.FaceDown)
    (hHand : ¬ c.EndsHand)
    (hStep : Step c e d) :
    d.FaceDown := by
  have hPhase := hFaceDown.phase
  cases hStep with
  | started hDealt hPosted hQuiet =>
      exact absurd (Or.inr rfl) hHand
  | asked hAt hAct =>
      exact ⟨hPhase, by simp [Pending.settles]⟩
  | passedOver hAt hAct hCloses =>
      exact ⟨hPhase, by simp [closes_settles hCloses]⟩
  | wonByFold hOne => exact ⟨hPhase, fun _ => hOne⟩
  | street hMany hStreet hDeal hQuiet =>
      rcases hQuiet with ⟨_, _, rfl, _⟩
      refine ⟨?_, by simp [Pending.settles]⟩
      simp only [List.mem_cons, Prod.mk.injEq,
        List.not_mem_nil, or_false] at hStreet
      rcases hStreet with ⟨_, _, rfl⟩ | ⟨_, _, rfl⟩ | ⟨_, _, rfl⟩
      · simp [GameSession.openStreet]
      · simp [GameSession.openStreet]
      · simp [GameSession.openStreet]
  | riverClosed hMany hRiver =>
      exact ⟨hPhase, by simp [Pending.settles]⟩
  | pastShowdown hMany hShown =>
      exact ⟨hPhase, by simp [Pending.settles]⟩
  | shownDown hQuiet hPending =>
      exact absurd (Or.inl rfl) hHand
  | singleWinner =>
      exact ⟨hPhase, fun _ => hFaceDown.sole rfl⟩
  | awardedNothing hEmpty =>
      exact ⟨hPhase, by simp [Pending.settles]⟩
  | awarded hFull hPaid hQuiet =>
      rcases hQuiet with ⟨_, _, rfl, _⟩
      refine ⟨?_, by simp [Pending.settles]⟩
      rcases GameSession.payPots_frame hPaid with ⟨chips, hEq⟩
      dsimp only
      rw [hEq]
      exact hPhase
  | handOver hEnough hChips =>
      exact ⟨hPhase, by simp [Pending.settles]⟩
  | gameOver hOver =>
      exact ⟨hPhase, by simp [Pending.settles]⟩
  | leftFew hFew hErased =>
      refine ⟨?_, by simp [Pending.settles]⟩
      have hVacated : ∀ s : GameSession, ∀ leaver : Leaver,
          (s.eraseLeaver leaver).phase = s.phase :=
        GameSession.vacate_phase
      rcases hErased with rfl | rfl
      · rw [hVacated]
        exact hPhase
      · rw [GameSession.vacate_phase]
        exact hPhase
  | leftOneActive hEnough hOne =>
      refine ⟨?_, by simp [Pending.settles]⟩
      rw [GameSession.vacate_phase]
      exact hPhase
  | leftClosing hEnough hMany hCloses =>
      refine ⟨?_, by simp [closes_settles hCloses]⟩
      rw [GameSession.vacate_phase]
      exact hPhase
  | leftWaiting hEnough hMany hOther hOpen hQuiet =>
      refine ⟨?_, by simp [Pending.settles]⟩
      rw [hQuiet.sameCards.phase, GameSession.vacate_phase]
      exact hPhase
  | unmapped hEnough hNone => exact hFaceDown
  | rejected hEnough hPlayer =>
      exact ⟨hPhase, by simp [Pending.settles]⟩
  | wonByAction hEnough hPlayer hAt hActs hQuiet hOne =>
      refine ⟨?_, fun _ => hOne⟩
      rw [hQuiet.sameCards.phase]
      exact ne_of_eq_of_ne hActs.sameCards.phase hPhase
  | acted hEnough hPlayer hAt hActs hQuiet hMany hCloses =>
      refine ⟨?_, by simp [closes_settles hCloses]⟩
      refine ne_of_eq_of_ne hQuiet.sameCards.phase ?_
      exact ne_of_eq_of_ne hActs.sameCards.phase hPhase
  | notSeated hEnough hNone => exact hFaceDown
  | leaving hEnough hPlayer hAt hCurrent hWas hPending =>
      refine ⟨hPhase, ?_⟩
      rcases hPending with ⟨hOne, rfl⟩ | ⟨_, rfl⟩
      · exact fun _ => hOne
      · simp [Pending.settles]

------------------------------------------------------------
-- Two Runs
------------------------------------------------------------

section Lockstep

variable {p : PlayerId}
variable {before before' : List ServerMessage}

/- The pending calls of a hand keep sessions alike. -/
theorem GameSession.Alike.body
    {s t : GameSession}
    {pending : Pending}
    (hAlike : Alike p before before' s t)
    (hFaceDown : Config.FaceDown ⟨s, pending⟩)
    (hHand : ¬ Config.EndsHand ⟨s, pending⟩)
    (shuffle shuffle' : Shuffle) :
    Except.Agree (AlikeResult p before before')
      (s.body shuffle pending) (t.body shuffle' pending) := by
  have hPhase := hFaceDown.phase
  cases pending with
  | done =>
      intro x y hX hY
      cases hX
  | start => exact absurd (Or.inr rfl) hHand
  | askCurrentPlayer => exact hAlike.askCurrentPlayer
  | nextPhase => exact hAlike.nextPhase
  | doShowdown => exact absurd (Or.inl rfl) hHand
  | handleSingleWinner => exact Except.agree_ok ⟨rfl, hAlike⟩
  | awardAllPots next =>
      have hAwards := hAlike.awardAllPots hPhase
        (hFaceDown.sole rfl)
      intro x y hX hY
      unfold GameSession.body at hX hY
      cases hU : s.awardAllPots with
      | error exn => simp [hU] at hX
      | ok u =>
          cases hV : t.awardAllPots with
          | error exn => simp [hV] at hY
          | ok v =>
              simp only [hU] at hX
              simp only [hV] at hY
              cases hX
              cases hY
              exact ⟨rfl, hAwards u v hU hV⟩
  | resume next =>
      cases next with
      | tryStartNewHand =>
          exact Except.agree_ok hAlike.tryStartNewHand
      | finishRemoval leaver =>
          exact hAlike.finishRemoval hPhase leaver

/- Two configurations with one pending call that look alike. -/
def Config.AlikeTo
    (p : PlayerId)
    (before before' : List ServerMessage)
    (c d : Config) : Prop :=
  d.pending = c.pending ∧
    GameSession.Alike p before before' c.session d.session

theorem Config.AlikeTo.step
    {c d c' d' : Config}
    {e e' : Event}
    (hAlike : c.AlikeTo p before before' d)
    (hFaceDown : c.FaceDown)
    (hHand : ¬ c.EndsHand)
    (hSame : e.isCall = true → e' = e)
    (hKind : e'.isCall = e.isCall)
    (hOk : c.step e = .ok c')
    (hOk' : d.step e' = .ok d') :
    c'.AlikeTo p before before' d' := by
  rcases c with ⟨s, pending⟩
  rcases d with ⟨t, pending'⟩
  rcases hAlike with ⟨hPending, hAlike⟩
  dsimp only at hPending hAlike
  subst hPending
  cases e with
  | proceed shuffle =>
      cases e' with
      | proceed shuffle' =>
          simp only [Config.step, Config.ofResult_eq_ok]
            at hOk hOk'
          exact hAlike.body hFaceDown hHand shuffle shuffle'
            _ _ hOk hOk'
      | applyAction connection action amount => cases hKind
      | removePlayer connection => cases hKind
  | applyAction connection action amount =>
      rw [hSame rfl] at hOk'
      simp only [Config.step] at hOk hOk'
      split at hOk
      · split at hOk'
        · rw [Config.ofResult_eq_ok] at hOk hOk'
          exact hAlike.applyAction connection action amount
            _ _ hOk hOk'
        · cases hOk'
      · cases hOk
  | removePlayer connection =>
      rw [hSame rfl] at hOk'
      simp only [Config.step] at hOk hOk'
      split at hOk
      · split at hOk'
        · rw [Config.ofResult_eq_ok] at hOk hOk'
          exact hAlike.removePlayer connection
            _ _ hOk hOk'
        · cases hOk'
      · cases hOk

/- A machine is called when it rests and only then. -/
theorem Config.isCall_iff
    {c d : Config}
    {e : Event}
    (hHand : ¬ c.EndsHand)
    (hOk : c.step e = .ok d) :
    e.isCall = true ↔ c.Rests := by
  have hRests : c.Rests ↔ c.pending = .done :=
    or_iff_left hHand
  rw [hRests]
  cases e with
  | proceed shuffle =>
      refine ⟨fun hCall => ?_, fun hDone => ?_⟩
      · cases hCall
      simp only [step, hDone, GameSession.body] at hOk
      cases hOk
  | applyAction connection action amount =>
      refine ⟨fun _ => ?_, fun _ => rfl⟩
      by_contra hBusy
      simp [step, Idle, hBusy] at hOk
  | removePlayer connection =>
      refine ⟨fun _ => ?_, fun _ => rfl⟩
      by_contra hBusy
      simp [step, Idle, hBusy] at hOk

end Lockstep

/- Dealt at the same table, two hands look alike. -/
theorem GameSession.SameTable.dealt_alike
    {s t : GameSession}
    {p : PlayerId}
    {shuffle shuffle' : Shuffle}
    {c d : Config}
    (hSame : s.SameTable t)
    (hDeal : Config.step ⟨s, .start⟩ (.proceed shuffle) =
      .ok c)
    (hDeal' : Config.step ⟨t, .start⟩ (.proceed shuffle') =
      .ok d)
    (hOwn : d.session.hands.find p =
      c.session.hands.find p) :
    c.FaceDown ∧
      c.AlikeTo p (s.seenBy p) (t.seenBy p) d := by
  refine ⟨Config.dealt_faceDown (step_of_ok hDeal), ?_⟩
  simp only [Config.step, Config.ofResult_eq_ok]
    at hDeal hDeal'
  exact hSame.start hDeal hDeal' hOwn

/- And they do so as long as neither comes to its end. -/
theorem Config.FaceDown.alike_step
    {p : PlayerId}
    {before before' : List ServerMessage}
    {c d c' d' : Config}
    {e e' : Event}
    (hBoth : c.FaceDown ∧ c.AlikeTo p before before' d)
    (hHand : ¬ c.EndsHand)
    (hCall : e.isCall = true → e' = e)
    (hKind : e'.isCall = e.isCall)
    (hOk : c.step e = .ok c')
    (hOk' : d.step e' = .ok d') :
    c'.FaceDown ∧ c'.AlikeTo p before before' d' :=
  ⟨hBoth.1.step hHand (step_of_ok hOk),
    hBoth.2.step hBoth.1 hHand hCall hKind hOk hOk'⟩

/-
  Two runs of one hand, dealt at the same table from any two
  decks, in which `p` holds the same cards, the same cards
  come on the board and the room makes the same calls.  Until
  the hand comes to its showdown or is over, `p` is sent the
  same messages.
-/
theorem GameSession.SameTable.handHidden
    {s t : GameSession}
    {p : PlayerId}
    {shuffle shuffle' : Shuffle}
    {c₀ d₀ c d : Config}
    {steps steps' : List (Config × Event)}
    (hSame : s.SameTable t)
    (hDeal : Config.step ⟨s, .start⟩ (.proceed shuffle) =
      .ok c₀)
    (hDeal' : Config.step ⟨t, .start⟩ (.proceed shuffle') =
      .ok d₀)
    (hOwn : d₀.session.hands.find p =
      c₀.session.hands.find p)
    (run : Transition.Run Config.step c₀ steps c)
    (run' : Transition.Run Config.step d₀ steps' d)
    (hHand : ∀ x ∈ steps, ¬ x.1.EndsHand)
    (hHand' : ∀ x ∈ steps', ¬ x.1.EndsHand)
    (hRests : c.Rests)
    (hRests' : d.Rests)
    (hCalls : Transition.callsOf Event.isCall steps' =
      Transition.callsOf Event.isCall steps)
    (hBoard : d.session.communityCards =
      c.session.communityCards) :
    ∃ messages,
      c.session.seenBy p = s.seenBy p ++ messages ∧
        d.session.seenBy p = t.seenBy p ++ messages := by
  have hStart := hSame.dealt_alike hDeal hDeal' hOwn
  have hKeep : ∀ (c d : Config) (e e' : Event) (c' d' : Config),
      c.FaceDown ∧ c.AlikeTo p (s.seenBy p) (t.seenBy p) d →
      ¬ c.EndsHand → ¬ d.EndsHand →
      (e.isCall = true → e' = e) → e'.isCall = e.isCall →
      c.step e = .ok c' → d.step e' = .ok d' →
      c'.FaceDown ∧
        c'.AlikeTo p (s.seenBy p) (t.seenBy p) d' := by
    intro c d e e' c' d' hBoth hOpen _ hCall hKind hOk hOk'
    exact Config.FaceDown.alike_step hBoth hOpen hCall hKind
      hOk hOk'
  have hCalled : ∀ (c : Config) (e : Event) (d : Config),
      ¬ c.EndsHand → c.step e = .ok d →
      (e.isCall = true ↔ c.Rests) :=
    fun _ _ _ => Config.isCall_iff
  have hBothRest : ∀ c d : Config,
      c.FaceDown ∧ c.AlikeTo p (s.seenBy p) (t.seenBy p) d →
      (c.Rests ↔ d.Rests) := by
    intro c d hBoth
    unfold Config.Rests Config.EndsHand
    rw [hBoth.2.1]
  have hEnd := run.lockstep hKeep hCalled hBothRest run'
    hCalls hHand hHand' hRests hRests' hStart
  exact hEnd.2.2.seen hBoard

/-
  The first deck of three players, with the cards of the
  second and of the third exchanged.
-/
def Table.exchangedDeck : Shuffle where
  cards := Deck.fresh.take 46 ++ (Deck.fresh.drop 48).take 2 ++
    (Deck.fresh.drop 46).take 2 ++ Deck.fresh.drop 50
  perm := by decide +kernel

/- Up to the flop player 0 cannot tell the two decks apart. -/
theorem Table.exchangedCards_hidden :
    ∃ c d : Config,
      c.session.phase = .flop ∧
      d.session.hands.find 1 ≠ c.session.hands.find 1 ∧
      c.session.seenBy 0 ≠ [] ∧
      d.session.seenBy 0 = c.session.seenBy 0 := by
  let table := numbered [1000, 1000, 1000] (by decide)
  let events := Event.proceeds 1 ++ [.act 0 .call] ++
    Event.proceeds 1 ++ [.act 1 .call] ++
    Event.proceeds 1 ++ [.act 2 .check] ++ Event.proceeds 2
  have hPasses :
      Transition.passes Config.step table.opening
        [.proceed .unshuffled] (fun _ c₀ =>
      Transition.passes Config.step table.opening
        [.proceed exchangedDeck] (fun _ d₀ =>
      Transition.passes Config.step c₀ events (fun steps c =>
      Transition.passes Config.step d₀ events (fun steps' d =>
        decide (d₀.session.hands.find 0 =
            c₀.session.hands.find 0 ∧
          (∀ x ∈ steps, ¬ x.1.EndsHand) ∧
          (∀ x ∈ steps', ¬ x.1.EndsHand) ∧
          c.Rests ∧ d.Rests ∧
          d.session.communityCards =
            c.session.communityCards ∧
          c.session.phase = .flop ∧
          d.session.hands.find 1 ≠ c.session.hands.find 1 ∧
          c.session.seenBy 0 ≠ []))))) = true := by
    decide +kernel
  rcases Transition.exists_step_of_passes hPasses with
    ⟨c₀, hDeal, hPasses⟩
  rcases Transition.exists_step_of_passes hPasses with
    ⟨d₀, hDeal', hPasses⟩
  rcases Transition.exists_run_on_of_passes hPasses with
    ⟨steps, c, run, hEvents, hPasses⟩
  rcases Transition.exists_run_on_of_passes hPasses with
    ⟨steps', d, run', hEvents', hTest⟩
  rcases of_decide_eq_true hTest with
    ⟨hOwn, hHand, hHand', hRests, hRests', hBoard, hPhase,
      hOthers, hSome⟩
  have hSame : table.create.SameTable table.create :=
    ⟨⟨⟨table.create.hands, table.create.deck,
      table.create.communityCards, table.create.bankrolls,
      table.create.log⟩, rfl⟩, fun _ => rfl⟩
  have hCalls : Transition.callsOf Event.isCall steps' =
      Transition.callsOf Event.isCall steps := by
    unfold Transition.callsOf
    rw [hEvents, hEvents']
  rcases hSame.handHidden hDeal hDeal' hOwn run run' hHand
      hHand' hRests hRests' hCalls hBoard with
    ⟨messages, hSeen, hSeen'⟩
  exact ⟨c, d, hPhase, hOthers, hSome, hSeen'.trans hSeen.symm⟩

end Server

end Poker

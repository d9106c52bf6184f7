import AsciiPoker.Server.GameSession.Places
import AsciiPoker.Server.GameSession.Progress

/-
  When the deck runs out.

  A hand takes two cards for everybody who is seated when it
  starts, and five for the board.  Who leaves takes no card
  back to the deck, so the number that counts is that of the
  players the hand was dealt to.

  Main declarations:
    * `dealtTo`, `Table.Run.deck_length`
    * `Config.Overdrawn`, `Table.Run.deckEmpty_iff`
    * `Table.crowdedHand_deckEmpty`
-/

namespace Poker

namespace Server

open Protocol

------------------------------------------------------------
-- The Cards That Are Left
------------------------------------------------------------

/- How many players the last hand of a run was dealt to. -/
def dealtTo
    (trace : List (Config × Event)) : Nat :=
  trace.foldl
    (fun count p =>
      if p.1.pending = .start then
        p.1.session.players.length
      else
        count)
    0

theorem dealtTo_snoc
    (trace : List (Config × Event))
    (c : Config)
    (e : Event) :
    dealtTo (trace ++ [(c, e)]) =
      if c.pending = .start then
        c.session.players.length
      else
        dealtTo trace := by
  simp [dealtTo, List.foldl_append]

/- Deck and board, and two cards each for `count` players. -/
def GameSession.Counted
    (s : GameSession)
    (count : Nat) : Prop :=
  s.deck.length + s.communityCards.length + 2 * count = 52

/- A street moves cards from the deck to the board. -/
theorem GameSession.Counted.deals
    {s t : GameSession}
    {count : Nat}
    (hCounted : s.Counted count)
    (hDeals : s.Deals t) :
    t.Counted count := by
  rcases hDeals with ⟨dealt, hBoard, hDeck⟩
  unfold GameSession.Counted at hCounted ⊢
  rw [hDeck] at hCounted
  rw [hBoard]
  simp only [List.length_append, List.length_reverse]
    at hCounted ⊢
  omega

/- A hand that was just dealt has used two cards a seat. -/
theorem started_counted
    {s dealt posted t : GameSession}
    {shuffle : Shuffle}
    (hDealt : s.Dealt shuffle dealt)
    (hPosted : dealt.postBlinds = .ok posted)
    (hQuiet : posted.openPreFlop.Quiet t)
    (hNodup : s.players.Nodup) :
    t.Counted s.players.length := by
  have hFilled := hDealt.seatsFilled
  have hHands := hDealt.handsDealt hNodup
  have hCards : (s.clearTable shuffle).deck.length = 52 :=
    shuffle.perm.length_eq
  have hSame : dealt.SameCards posted := by
    rcases GameSession.blinds_of_ok hPosted with
      ⟨sb, bb, _, _, rfl⟩
    exact ((dealt.contribute_sameCards sb _).trans
      (GameSession.contribute_sameCards _ bb _)).trans
        ⟨rfl, rfl, rfl, rfl, rfl⟩
  have hDeck : t.deck = dealt.deck :=
    hQuiet.sameCards.deck.trans hSame.deck
  have hBoard : t.communityCards = [] :=
    hQuiet.sameCards.communityCards.trans
      (hSame.communityCards.trans hHands.communityCards)
  have hUsed := hFilled.deck
  unfold GameSession.Counted
  rw [hDeck, hBoard, List.length_nil]
  omega

/- Every step keeps the cards counted. -/
theorem GameSession.Counted.step
    {c d : Config}
    {e : Event}
    {count : Nat}
    (hCounted : c.pending ≠ .start → c.session.Counted count)
    (hSeated : c.Seated)
    (hStep : Step c e d) :
    d.session.Counted
      (if c.pending = .start then
        c.session.players.length
      else
        count) := by
  by_cases hStart : c.pending = .start
  · rw [if_pos hStart]
    cases hStep with
    | started hDealt hPosted hQuiet =>
        exact started_counted hDealt hPosted hQuiet
          hSeated.nodup
    | _ => cases hStart
  · rw [if_neg hStart]
    exact (hCounted hStart).deals (hStep.deals hStart)

/- What is left of the deck once a hand is dealt. -/
theorem Table.Run.deck_length
    {table : Table}
    {trace : List (Config × Event)}
    {c : Config}
    (run : table.Run trace c)
    (hDealt : c.pending ≠ .start) :
    c.session.deck.length + boardSize c.session.phase +
      2 * dealtTo trace = 52 := by
  have hKeep : ∀ (trace : List (Config × Event)) (c : Config)
      (e : Event) (d : Config),
      (c.Seated ∧ (c.pending ≠ .start →
        c.session.Counted (dealtTo trace))) →
      c.step e = .ok d →
      (d.Seated ∧ (d.pending ≠ .start →
        d.session.Counted (dealtTo (trace ++ [(c, e)])))) := by
    rintro trace c e d ⟨hSeated, hCounted⟩ hOk
    have hStep := step_of_ok hOk
    refine ⟨hSeated.step hStep, fun _ => ?_⟩
    rw [dealtTo_snoc]
    exact GameSession.Counted.step hCounted hSeated hStep
  have hEnd := (run.invariant_of_history hKeep
    ⟨table.opening_seated, fun hNot => absurd rfl hNot⟩).2
      hDealt
  rw [← (run.cardsDealt.inOrder hDealt).board]
  exact hEnd

------------------------------------------------------------
-- Hands That Are Too Large
------------------------------------------------------------

/-
  The step deals to more players than the deck serves: 26 get
  their hole cards, 24 of them see a flop and a turn, and 23
  a river.
-/
def Config.Overdrawn
    (c : Config)
    (count : Nat) : Event → Prop
| .proceed _ =>
    (c.pending = .start ∧ 26 < c.session.players.length) ∨
      (c.pending = .nextPhase ∧
        c.session.countActivePlayers ≠ 1 ∧
        ((c.session.phase = .preFlop ∧ 24 < count) ∨
          (c.session.phase = .flop ∧ 24 < count) ∨
          (c.session.phase = .turn ∧ 23 < count)))
| .applyAction _ _ _ => False
| .removePlayer _ => False

/- The deck is short exactly for hands that are too large. -/
theorem Table.Run.deckShort_iff
    {table : Table}
    {trace : List (Config × Event)}
    {c : Config}
    (run : table.Run trace c)
    (shuffle : Shuffle) :
    c.DeckShort ↔
      c.Overdrawn (dealtTo trace) (.proceed shuffle) := by
  unfold Config.DeckShort Config.Overdrawn
  by_cases hNext : c.pending = .nextPhase
  · have hLength := run.deck_length (by simp [hNext])
    have hStreet : c.session.deck.length <
          GameSession.nextStreet c.session.phase ↔
        ((c.session.phase = .preFlop ∧ 24 < dealtTo trace) ∨
          (c.session.phase = .flop ∧ 24 < dealtTo trace) ∨
          (c.session.phase = .turn ∧ 23 < dealtTo trace)) := by
      cases hPhase : c.session.phase with
      | preFlop =>
          simp only [hPhase, boardSize] at hLength
          simp only [GameSession.nextStreet, reduceCtorEq,
            true_and, false_and, or_false]
          omega
      | flop =>
          simp only [hPhase, boardSize] at hLength
          simp only [GameSession.nextStreet, reduceCtorEq,
            true_and, false_and, false_or, or_false]
          omega
      | turn =>
          simp only [hPhase, boardSize] at hLength
          simp only [GameSession.nextStreet, reduceCtorEq,
            true_and, false_and, false_or]
          omega
      | river => simp [GameSession.nextStreet]
      | showdown => simp [GameSession.nextStreet]
    rw [hStreet]
  · simp [hNext]

/- A step for which the deck is short does not return. -/
theorem Config.DeckShort.error
    {c : Config}
    (hShort : c.DeckShort)
    (hSeated : c.Seated)
    (hFurnished : c.Furnished)
    (shuffle : Shuffle) :
    c.step (.proceed shuffle) = .error .deckEmpty := by
  have hFails : (c.step (.proceed shuffle)).FailsOnly
      (fun exn => exn = .deckEmpty) := by
    rcases c with ⟨s, pending⟩
    apply Config.ofResult_failsOnly
    rcases hShort with ⟨rfl, _⟩ | ⟨rfl, _, _⟩
    · rcases hFurnished.toStart rfl with ⟨hEnough, hDealer⟩
      exact GameSession.start_failsOnly shuffle hEnough hDealer
        (Or.inr rfl)
    · have hHere := hFurnished.session (by simp) (by simp)
      exact hHere.laid.nextPhase_failsOnly (Or.inr (Or.inr rfl))
  cases hStep : c.step (.proceed shuffle) with
  | error exn => rw [hFails exn hStep]
  | ok d =>
      exfalso
      rcases hShort with ⟨hStart, hMany⟩ |
        ⟨hNext, hActive, hFew⟩
      · cases step_of_ok hStep with
        | started hDealt hPosted hQuiet =>
            have hServed :=
              (GameSession.started_dealtIn hDealt
                hPosted).2.2.1
            dsimp only at hMany
            omega
        | _ => cases hStart
      · cases step_of_ok hStep with
        | wonByFold hOne => exact hActive hOne
        | @street s t count phase dealt rest shuffle hMany
            hPhase hDeal hQuiet =>
            have hEnough : count ≤ s.deck.length :=
              Deck.deal_isSome_iff.mp (by simp [hDeal])
            simp only [List.mem_cons, Prod.mk.injEq,
              List.not_mem_nil, or_false] at hPhase
            rcases hPhase with
              ⟨h, rfl, _⟩ | ⟨h, rfl, _⟩ | ⟨h, rfl, _⟩
            · simp only [h, GameSession.nextStreet] at hFew
              omega
            · simp only [h, GameSession.nextStreet] at hFew
              omega
            · simp only [h, GameSession.nextStreet] at hFew
              omega
        | riverClosed hMany hPhase =>
            simp [hPhase, GameSession.nextStreet] at hFew
        | pastShowdown hMany hPhase =>
            simp [hPhase, GameSession.nextStreet] at hFew
        | _ => cases hNext

/-
  Every run, and every step after it: the deck runs out
  exactly when the hand is too large for it.
-/
theorem Table.Run.deckEmpty_iff
    {table : Table}
    {trace : List (Config × Event)}
    {c : Config}
    (run : table.Run trace c)
    (e : Event) :
    c.step e = .error .deckEmpty ↔
      c.Overdrawn (dealtTo trace) e := by
  constructor
  · intro hError
    have hKind : (c.step e).FailsOnly
        (fun exn => exn = .deckEmpty →
          c.Overdrawn (dealtTo trace) e) :=
      run.furnished.step_failsOnly run.seated e
        (fun shuffle hProceed hShort _ => by
          rw [hProceed]
          exact (run.deckShort_iff shuffle).mp hShort)
        (fun hEq => by cases hEq)
    exact hKind .deckEmpty hError rfl
  · intro hOver
    cases e with
    | proceed shuffle =>
        exact ((run.deckShort_iff shuffle).mpr hOver).error
          run.seated run.furnished shuffle
    | applyAction connection action amount =>
        exact absurd hOver id
    | removePlayer connection => exact absurd hOver id

/- Of 25 players all but the blinds fold before the flop. -/
def Event.crowdedHand : List Event :=
  Event.proceeds 2 ++
    ((List.range' 3 22 ++ [0]).flatMap fun p =>
      [Event.act p .fold] ++ Event.proceeds 1) ++
    [.act 1 .call] ++ Event.proceeds 1 ++ [.act 2 .check]

/- There are two cards left for the flop. -/
theorem Table.crowdedHand_deckEmpty :
    ∃ trace c,
      (numbered (List.replicate 25 1000) (by decide)).Run
        trace c ∧
      c.step (.proceed .unshuffled) = .error .deckEmpty := by
  rcases exists_run
      (numbered (List.replicate 25 1000) (by decide))
      Event.crowdedHand
      (fun trace c => decide
        (c.pending = .nextPhase ∧ dealtTo trace = 25 ∧
          c.session.countActivePlayers = 2 ∧
          c.session.phase = .preFlop))
      (by decide +kernel) with
    ⟨trace, c, run, hTest⟩
  rcases of_decide_eq_true hTest with
    ⟨hNext, hDealt, hActive, hPhase⟩
  refine ⟨trace, c, run, ?_⟩
  rw [run.deckEmpty_iff]
  exact Or.inr ⟨hNext, by simp [hActive],
    Or.inl ⟨hPhase, by simp [hDealt]⟩⟩

end Server

end Poker

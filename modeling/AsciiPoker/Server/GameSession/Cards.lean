import AsciiPoker.Server.GameSession.Seated
import Mathlib.Data.List.Flatten

/-
  Where the cards of a hand are.

  From the deal to the end of a hand the hole cards of the
  seated players, the board and the deck are cards of one
  deck, and the board is as long as the phase asks for.

  Main declarations:
    * `GameSession.CardsInOrder`
    * `Config.CardsDealt`, `Config.CardsDealt.step`
    * `Table.Run.cardsInOrder`
-/

namespace Poker

namespace Server

open Protocol

/- The number of cards on the board in a phase. -/
def boardSize : GamePhase → Nat
| .preFlop => 0
| .flop => 3
| .turn => 4
| .river => 5
| .showdown => 5

namespace GameSession

/- The cards of the seated players, the board, the deck. -/
def cards
    (s : GameSession) : List Card :=
  s.players.flatMap s.hands.get ++ s.communityCards ++ s.deck

/- Nobody holds what another holds, or what is to come. -/
structure CardsInOrder
    (s : GameSession) : Prop where
  cards_nodup : s.cards.Nodup
  hand : ∀ p ∈ s.players,
    ∃ first second, s.hands.find p = some [first, second]
  board : s.communityCards.length = boardSize s.phase

variable {s t : GameSession}

/- The players, their cards and the phase are the same. -/
structure SameCards
    (s t : GameSession) : Prop where
  players : t.players = s.players
  hands : t.hands = s.hands
  communityCards : t.communityCards = s.communityCards
  deck : t.deck = s.deck
  phase : t.phase = s.phase

theorem CardsInOrder.same
    (hCards : s.CardsInOrder)
    (hSame : s.SameCards t) :
    t.CardsInOrder where
  cards_nodup := by
    unfold cards
    rw [hSame.players, hSame.hands, hSame.communityCards,
      hSame.deck]
    exact hCards.cards_nodup
  hand := by
    rw [hSame.players, hSame.hands]
    exact hCards.hand
  board := by
    rw [hSame.communityCards, hSame.phase]
    exact hCards.board

theorem SameCards.trans
    {u : GameSession}
    (hFirst : s.SameCards t)
    (hSecond : t.SameCards u) :
    s.SameCards u where
  players := hSecond.players.trans hFirst.players
  hands := hSecond.hands.trans hFirst.hands
  communityCards :=
    hSecond.communityCards.trans hFirst.communityCards
  deck := hSecond.deck.trans hFirst.deck
  phase := hSecond.phase.trans hFirst.phase

theorem Quiet.sameCards
    (hQuiet : s.Quiet t) :
    s.SameCards t := by
  rcases hQuiet with ⟨_, _, rfl, _⟩
  exact ⟨rfl, rfl, rfl, rfl, rfl⟩

theorem contribute_sameCards
    (s : GameSession)
    (player : PlayerId)
    (amount : UInt32) :
    s.SameCards (s.contribute player amount) := by
  rcases s.contribute_eq player amount with ⟨_, hEq⟩
  rw [hEq]
  exact ⟨rfl, rfl, rfl, rfl, rfl⟩

/- An action moves chips, not cards. -/
theorem Acts.sameCards
    {p : PlayerId}
    {action : Action}
    {amount : Option UInt32}
    (hActs : s.Acts p action amount t) :
    s.SameCards t := by
  cases hActs with
  | fold => exact ⟨rfl, rfl, rfl, rfl, rfl⟩
  | check => exact ⟨rfl, rfl, rfl, rfl, rfl⟩
  | callNothing => exact ⟨rfl, rfl, rfl, rfl, rfl⟩
  | call => exact s.contribute_sameCards p _
  | raise =>
      exact (s.contribute_sameCards p _).trans
        ⟨rfl, rfl, rfl, rfl, rfl⟩

------------------------------------------------------------
-- Dealing
------------------------------------------------------------

/- The hands that are dealt and the deck are the old deck. -/
structure HandsDealt
    (s : GameSession)
    (served : List PlayerId)
    (t : GameSession) : Prop where
  cards_perm :
    (served.flatMap t.hands.get ++ t.deck).Perm s.deck
  hand : ∀ p ∈ served,
    ∃ first second, t.hands.find p = some [first, second]
  communityCards : t.communityCards = s.communityCards
  players : t.players = s.players

theorem HandsDealt.snoc
    {u : GameSession}
    {served : List PlayerId}
    {p : PlayerId}
    (hHands : s.HandsDealt served t)
    (hNew : p ∉ served)
    (hOk : t.dealPlayer p = .ok u) :
    s.HandsDealt (served ++ [p]) u := by
  rcases dealPlayer_of_ok hOk with
    ⟨deck, hand, hDeck, hTwo, rfl⟩
  have hOthers : ∀ q ∈ served,
      (t.hands.set p hand).find q = t.hands.find q := by
    intro q hq
    have hNe : q ≠ p := fun hEq => hNew (hEq ▸ hq)
    simp [KeyMap.find_set, hNe]
  have hFlat : served.flatMap (t.hands.set p hand).get =
      served.flatMap t.hands.get := by
    apply List.flatMap_congr
    intro q hq
    simp [KeyMap.get, hOthers q hq]
  refine ⟨?_, ?_, hHands.communityCards, hHands.players⟩
  · refine List.Perm.trans ?_ hHands.cards_perm
    dsimp only
    rw [hDeck, List.flatMap_append, hFlat, List.append_assoc]
    apply List.Perm.append_left
    have hHand :
        [p].flatMap (t.hands.set p hand).get = hand := by
      simp [KeyMap.get, KeyMap.find_set]
    rw [hHand]
    exact List.perm_append_comm.trans
      (List.Perm.append_left _ (List.reverse_perm hand).symm)
  · intro q hq
    rcases List.mem_append.mp hq with hOld | hLast
    · rw [hOthers q hOld]
      exact hHands.hand q hOld
    · rw [List.mem_singleton.mp hLast]
      rcases List.length_eq_two.mp hTwo with ⟨a, b, rfl⟩
      exact ⟨a, b, by simp [KeyMap.find_set]⟩

/- Everybody is dealt two cards of the shuffled deck. -/
theorem Dealt.handsDealt
    {dealt : GameSession}
    {shuffle : Shuffle}
    (hDealt : s.Dealt shuffle dealt)
    (hNodup : s.players.Nodup) :
    (s.clearTable shuffle).HandsDealt s.players dealt := by
  refine List.foldlM_prefix ?_ hDealt
    ⟨List.Perm.refl _, by simp, rfl, rfl⟩
  intro done p rest u v hSplit hHands hOk
  have hPlayers : s.players = done ++ p :: rest := hSplit
  rw [hPlayers, List.nodup_append] at hNodup
  exact hHands.snoc
    (fun hp => hNodup.2.2 p hp p (by simp) rfl) hOk

/- Every deck holds 52 different cards. -/
theorem fresh_nodup :
    Deck.fresh.Nodup := by
  decide

/- The table of a hand that was just dealt. -/
theorem started_cardsInOrder
    {dealt posted : GameSession}
    {shuffle : Shuffle}
    (hDealt : s.Dealt shuffle dealt)
    (hPosted : dealt.postBlinds = .ok posted)
    (hNodup : s.players.Nodup) :
    posted.openPreFlop.CardsInOrder := by
  have hHands := hDealt.handsDealt hNodup
  have hSame : dealt.SameCards posted := by
    rcases blinds_of_ok hPosted with ⟨sb, bb, _, _, rfl⟩
    exact ((dealt.contribute_sameCards sb _).trans
      (contribute_sameCards _ bb _)).trans
        ⟨rfl, rfl, rfl, rfl, rfl⟩
  have hPlayers : posted.players = s.players :=
    hSame.players.trans hHands.players
  have hBoard : posted.communityCards = [] :=
    hSame.communityCards.trans hHands.communityCards
  refine ⟨?_, ?_, ?_⟩
  · change (posted.players.flatMap posted.hands.get ++
      posted.communityCards ++ posted.deck).Nodup
    rw [hPlayers, hSame.hands, hBoard, hSame.deck,
      List.append_nil]
    exact (hHands.cards_perm.trans shuffle.perm).nodup_iff.mpr
      fresh_nodup
  · change ∀ p ∈ posted.players, ∃ first second,
      posted.hands.find p = some [first, second]
    rw [hPlayers, hSame.hands]
    exact hHands.hand
  · change posted.communityCards.length = 0
    rw [hBoard]
    rfl

/- A street moves cards from the deck to the board. -/
theorem CardsInOrder.street
    {count : Nat}
    {phase : GamePhase}
    {dealt rest : List Card}
    (hCards : s.CardsInOrder)
    (hDeal : Deck.deal s.deck count = some (dealt, rest))
    (hSize : boardSize phase = boardSize s.phase + count) :
    (s.clearBets.openStreet dealt rest phase).CardsInOrder := by
  rcases Deck.deal_eq_some hDeal with ⟨hDeck, hCount⟩
  refine ⟨?_, hCards.hand, ?_⟩
  · have hNodup := hCards.cards_nodup
    unfold cards at hNodup
    rw [hDeck] at hNodup
    refine List.Perm.nodup ?_ hNodup
    change List.Perm _ (s.players.flatMap s.hands.get ++
      (s.communityCards ++ dealt) ++ rest)
    rw [List.append_assoc, List.append_assoc,
      List.append_assoc]
    refine List.Perm.append_left _ (List.Perm.append_left _ ?_)
    exact (List.Perm.append_left _
      (List.reverse_perm dealt)).trans List.perm_append_comm
  · change (s.communityCards ++ dealt).length = boardSize phase
    rw [List.length_append, hCards.board, hCount, hSize]

/- A leaver takes his cards out of the hand. -/
theorem CardsInOrder.vacate
    {leaver : Leaver}
    (hCards : s.CardsInOrder)
    (hNodup : s.players.Nodup)
    (hAt : s.players[leaver.removedIndex]? =
      some leaver.player) :
    (s.vacate leaver).CardsInOrder := by
  rcases s.vacate_eq leaver with ⟨_, _, hEq, _⟩
  rw [hEq]
  have hOthers :
      ∀ p ∈ s.players.eraseIdx leaver.removedIndex,
        p ∈ s.players ∧
          (s.hands.erase leaver.player).find p =
            s.hands.find p := by
    intro p hp
    rcases (mem_eraseIdx hNodup hAt).mp hp with ⟨hMem, hNe⟩
    exact ⟨hMem, by simp [KeyMap.find_erase, hNe]⟩
  refine ⟨?_, ?_, hCards.board⟩
  · have hSublist :
        ((s.players.eraseIdx leaver.removedIndex).flatMap
          s.hands.get).Sublist
            (s.players.flatMap s.hands.get) :=
      (List.eraseIdx_sublist _ _).flatMap _
    have hFlat :
        (s.players.eraseIdx leaver.removedIndex).flatMap
            (s.hands.erase leaver.player).get =
          (s.players.eraseIdx leaver.removedIndex).flatMap
            s.hands.get := by
      apply List.flatMap_congr
      intro p hp
      simp [KeyMap.get, (hOthers p hp).2]
    have hAll := (hSublist.append_right
      s.communityCards).append_right s.deck
    unfold cards
    dsimp only
    rw [hFlat]
    exact hAll.nodup hCards.cards_nodup
  · intro p hp
    rw [(hOthers p hp).2]
    exact hCards.hand p (hOthers p hp).1

end GameSession

------------------------------------------------------------
-- Steps
------------------------------------------------------------

/-
  From the deal on the cards are in order, and a showdown
  comes after the river.
-/
structure Config.CardsDealt
    (c : Config) : Prop where
  inOrder : c.pending ≠ .start → c.session.CardsInOrder
  river : c.pending = .doShowdown → c.session.phase = .river

/- A step that moves no card. -/
theorem Config.CardsDealt.of_same
    {c d : Config}
    (hCards : c.CardsDealt)
    (hOpen : c.pending ≠ .start)
    (hSame : c.session.SameCards d.session)
    (hOther : d.pending ≠ .doShowdown) :
    d.CardsDealt where
  inOrder := fun _ => (hCards.inOrder hOpen).same hSame
  river := fun hPending => absurd hPending hOther

theorem closes_ne_doShowdown
    {s : GameSession}
    {pending : Pending}
    (hCloses : s.Closes pending) :
    pending ≠ .doShowdown := by
  rcases hCloses with ⟨_, rfl⟩ | ⟨_, rfl⟩
  · simp
  · simp

/- A departure leaves the cards of the others in order. -/
theorem Config.CardsDealt.of_vacate
    {s t : GameSession}
    {leaver : Leaver}
    {pending : Pending}
    (hCards : Config.CardsDealt
      ⟨s, .resume (.finishRemoval leaver)⟩)
    (hSeated : Config.Seated
      ⟨s, .resume (.finishRemoval leaver)⟩)
    (hSame : (s.vacate leaver).SameCards t)
    (hOther : pending ≠ .doShowdown) :
    Config.CardsDealt ⟨t, pending⟩ where
  inOrder := fun _ =>
    ((hCards.inOrder (by simp)).vacate hSeated.nodup
      (hSeated.leaver leaver rfl).1).same hSame
  river := fun hPending => absurd hPending hOther

/- Every step keeps the cards in order. -/
theorem Config.CardsDealt.step
    {c d : Config}
    {e : Event}
    (hCards : c.CardsDealt)
    (hSeated : c.Seated)
    (hStep : Step c e d) :
    d.CardsDealt := by
  cases hStep with
  | started hDealt hPosted hQuiet =>
      have hStarted := GameSession.started_cardsInOrder hDealt
        hPosted hSeated.nodup
      exact ⟨fun _ => hStarted.same hQuiet.sameCards, by simp⟩
  | asked hAt hAct =>
      exact hCards.of_same (by simp) ⟨rfl, rfl, rfl, rfl, rfl⟩
        (by simp)
  | passedOver hAt hAct hCloses =>
      exact hCards.of_same (by simp) ⟨rfl, rfl, rfl, rfl, rfl⟩
        (closes_ne_doShowdown hCloses)
  | wonByFold hOne =>
      exact hCards.of_same (by simp) ⟨rfl, rfl, rfl, rfl, rfl⟩
        (by simp)
  | @street s t count phase dealt rest shuffle hMany hPhase
      hDeal hQuiet =>
      have hSize : boardSize phase =
          boardSize s.phase + count := by
        simp only [List.mem_cons, Prod.mk.injEq,
          List.not_mem_nil, or_false] at hPhase
        rcases hPhase with
          ⟨h, rfl, rfl⟩ | ⟨h, rfl, rfl⟩ | ⟨h, rfl, rfl⟩
        · rw [h]
          rfl
        · rw [h]
          rfl
        · rw [h]
          rfl
      have hStreet :=
        (hCards.inOrder (by simp)).street hDeal hSize
      exact ⟨fun _ => hStreet.same hQuiet.sameCards, by simp⟩
  | riverClosed hMany hPhase =>
      exact ⟨fun _ => (hCards.inOrder (by simp)).same
        ⟨rfl, rfl, rfl, rfl, rfl⟩, fun _ => hPhase⟩
  | pastShowdown hMany hPhase =>
      exact hCards.of_same (by simp) ⟨rfl, rfl, rfl, rfl, rfl⟩
        (by simp)
  | @shownDown s t pending shuffle hQuiet hPending =>
      have hRiver := hCards.river rfl
      have hHere := hCards.inOrder (by simp)
      dsimp only at hRiver hHere
      have hShown : GameSession.CardsInOrder
          { s with phase := .showdown } := by
        refine ⟨hHere.cards_nodup, hHere.hand, ?_⟩
        have hBoard := hHere.board
        rw [hRiver] at hBoard
        exact hBoard
      refine ⟨fun _ => hShown.same hQuiet.sameCards, ?_⟩
      rcases hPending with ⟨_, rfl⟩ | ⟨_, rfl⟩ | ⟨_, rfl⟩
      · simp
      · simp
      · simp
  | singleWinner =>
      exact hCards.of_same (by simp) ⟨rfl, rfl, rfl, rfl, rfl⟩
        (by simp)
  | awardedNothing hEmpty =>
      exact hCards.of_same (by simp) ⟨rfl, rfl, rfl, rfl, rfl⟩
        (by simp)
  | @awarded s t award next shuffle hFull hPaid hQuiet =>
      rcases GameSession.payPots_frame hPaid with ⟨chips, hEq⟩
      have hSame : s.SameCards { award.session with
          pot := 0
          totalContributed := .empty } := by
        rw [hEq]
        exact ⟨rfl, rfl, rfl, rfl, rfl⟩
      exact hCards.of_same (by simp)
        (hSame.trans hQuiet.sameCards) (by simp)
  | handOver hEnough hChips =>
      exact ⟨fun hNot => absurd rfl hNot, by simp⟩
  | gameOver hOver =>
      exact hCards.of_same (by simp) ⟨rfl, rfl, rfl, rfl, rfl⟩
        (by simp)
  | leftFew hFew hErased =>
      rcases hErased with rfl | rfl
      · exact hCards.of_vacate hSeated
          ⟨rfl, rfl, rfl, rfl, rfl⟩ (by simp)
      · exact hCards.of_vacate hSeated
          ⟨rfl, rfl, rfl, rfl, rfl⟩ (by simp)
  | leftOneActive hEnough hOne =>
      exact hCards.of_vacate hSeated
        ⟨rfl, rfl, rfl, rfl, rfl⟩ (by simp)
  | leftClosing hEnough hMany hCloses =>
      exact hCards.of_vacate hSeated
        ⟨rfl, rfl, rfl, rfl, rfl⟩
        (closes_ne_doShowdown hCloses)
  | leftWaiting hEnough hMany hOther hOpen hQuiet =>
      exact hCards.of_vacate hSeated hQuiet.sameCards (by simp)
  | unmapped hEnough hNone => exact hCards
  | rejected hEnough hPlayer =>
      exact hCards.of_same (by simp) ⟨rfl, rfl, rfl, rfl, rfl⟩
        (by simp)
  | @wonByAction s t u p connection action amount hEnough
      hPlayer hAt hActs hQuiet hOne =>
      have hRecorded :
          t.SameCards (t.recordPlayerAction p action) :=
        ⟨rfl, rfl, rfl, rfl, rfl⟩
      exact hCards.of_same (by simp)
        ((hActs.sameCards.trans hRecorded).trans
          hQuiet.sameCards) (by simp)
  | @acted s t u p pending connection action amount hEnough
      hPlayer hAt hActs hQuiet hMany hCloses =>
      have hRecorded :
          t.SameCards (t.recordPlayerAction p action) :=
        ⟨rfl, rfl, rfl, rfl, rfl⟩
      have hAdvanced : u.SameCards u.advanceToNextPlayer :=
        ⟨rfl, rfl, rfl, rfl, rfl⟩
      exact hCards.of_same (by simp)
        (((hActs.sameCards.trans hRecorded).trans
          hQuiet.sameCards).trans hAdvanced)
        (closes_ne_doShowdown hCloses)
  | notSeated hEnough hNone => exact hCards
  | leaving hEnough hPlayer hAt hCurrent hWas hPending =>
      refine hCards.of_same (by simp)
        ⟨rfl, rfl, rfl, rfl, rfl⟩ ?_
      rcases hPending with ⟨_, rfl⟩ | ⟨_, rfl⟩
      · simp
      · simp

/- `t` has dealt cards from the deck of `s` to the board. -/
def GameSession.Deals
    (s t : GameSession) : Prop :=
  ∃ dealt, t.communityCards = s.communityCards ++ dealt ∧
    s.deck = t.deck ++ dealt.reverse

theorem GameSession.SameCards.deals
    {s t : GameSession}
    (hSame : s.SameCards t) :
    s.Deals t :=
  ⟨[], by rw [hSame.communityCards, List.append_nil],
    by rw [hSame.deck]; simp⟩

theorem GameSession.vacate_deals
    (s : GameSession)
    (leaver : Leaver) :
    s.Deals (s.vacate leaver) :=
  ⟨[], by rw [vacate_communityCards, List.append_nil],
    by rw [vacate_deck]; simp⟩

/- Once the hole cards are dealt, cards go to the board. -/
theorem Step.deals
    {c d : Config}
    {e : Event}
    (hStep : Step c e d)
    (hOpen : c.pending ≠ .start) :
    c.session.Deals d.session := by
  have hNothing : ∀ s : GameSession, s.SameCards s :=
    fun _ => ⟨rfl, rfl, rfl, rfl, rfl⟩
  cases hStep with
  | started hDealt hPosted hQuiet => exact absurd rfl hOpen
  | asked hAt hAct => exact ⟨[], by simp [GameSession.send],
      by simp [GameSession.send]⟩
  | passedOver hAt hAct hCloses => exact (hNothing _).deals
  | wonByFold hOne => exact (hNothing _).deals
  | @street s t count phase dealt rest shuffle hMany hPhase
      hDeal hQuiet =>
      rcases hQuiet with ⟨_, _, rfl, _⟩
      exact ⟨dealt, rfl, (Deck.deal_eq_some hDeal).1⟩
  | riverClosed hMany hPhase => exact (hNothing _).deals
  | pastShowdown hMany hPhase => exact (hNothing _).deals
  | shownDown hQuiet hPending =>
      rcases hQuiet with ⟨_, _, rfl, _⟩
      exact ⟨[], by simp, by simp⟩
  | singleWinner => exact (hNothing _).deals
  | awardedNothing hEmpty => exact (hNothing _).deals
  | @awarded s t award next shuffle hFull hPaid hQuiet =>
      rcases GameSession.payPots_frame hPaid with ⟨chips, hEq⟩
      rcases hQuiet with ⟨_, _, rfl, _⟩
      exact ⟨[], by simp [hEq], by simp [hEq]⟩
  | handOver hEnough hChips => exact ⟨[], by simp, by simp⟩
  | gameOver hOver => exact (hNothing _).deals
  | leftFew hFew hErased =>
      rcases hErased with rfl | rfl
      · exact GameSession.vacate_deals _ _
      · exact GameSession.vacate_deals _ _
  | leftOneActive hEnough hOne =>
      exact GameSession.vacate_deals _ _
  | leftClosing hEnough hMany hCloses =>
      exact GameSession.vacate_deals _ _
  | leftWaiting hEnough hMany hOther hOpen hQuiet =>
      rcases hQuiet with ⟨_, _, rfl, _⟩
      exact GameSession.vacate_deals _ _
  | unmapped hEnough hNone => exact (hNothing _).deals
  | rejected hEnough hPlayer =>
      exact (GameSession.sendError_quiet ..).sameCards.deals
  | wonByAction hEnough hPlayer hAt hActs hQuiet hOne =>
      rcases hQuiet with ⟨_, _, rfl, _⟩
      rcases hActs.sameCards.deals with ⟨dealt, hBoard, hDeck⟩
      exact ⟨dealt, hBoard, hDeck⟩
  | acted hEnough hPlayer hAt hActs hQuiet hMany hCloses =>
      rcases hQuiet with ⟨_, _, rfl, _⟩
      rcases hActs.sameCards.deals with ⟨dealt, hBoard, hDeck⟩
      exact ⟨dealt, hBoard, hDeck⟩
  | notSeated hEnough hNone => exact (hNothing _).deals
  | leaving hEnough hPlayer hAt hCurrent hWas hPending =>
      exact (hNothing _).deals

------------------------------------------------------------
-- Runs
------------------------------------------------------------

theorem Table.Run.cardsDealt
    {table : Table}
    {trace : List (Config × Event)}
    {c : Config}
    (run : table.Run trace c) :
    c.CardsDealt := by
  have hKeep : ∀ (c : Config) (e : Event) (d : Config),
      c.Seated ∧ c.CardsDealt → c.step e = .ok d →
      d.Seated ∧ d.CardsDealt := by
    rintro c e d ⟨hSeated, hCards⟩ hOk
    have hStep := step_of_ok hOk
    exact ⟨hSeated.step hStep, hCards.step hSeated hStep⟩
  have hStart : table.opening.Seated ∧
      table.opening.CardsDealt := by
    refine ⟨table.opening_seated, ?_, ?_⟩
    · intro hNot
      exact absurd rfl hNot
    · intro hPending
      cases hPending
  exact (run.invariant_of_step hKeep hStart).2

/-
  Between two calls, and wherever else a hand is dealt, the
  cards in play are different cards of one deck, every seated
  player holds two, and the board is that of the phase.
-/
theorem Table.Run.cardsInOrder
    {table : Table}
    {trace : List (Config × Event)}
    {c : Config}
    (run : table.Run trace c)
    (hDealt : c.pending ≠ .start) :
    c.session.CardsInOrder :=
  run.cardsDealt.inOrder hDealt

/- Three players, one of whom leaves before the flop. -/
theorem Table.departure_cardsInOrder :
    ∃ trace c,
      (numbered [1000, 1000, 1000] (by decide)).Run trace c ∧
      c.pending = .done ∧ c.session.phase = .flop ∧
      c.session.CardsInOrder := by
  rcases exists_run (numbered [1000, 1000, 1000] (by decide))
      (Event.proceeds 2 ++ [.act 0 .call] ++
        Event.proceeds 1 ++ [.removePlayer 0] ++
        Event.proceeds 1 ++ [.act 1 .call] ++
        Event.proceeds 1 ++ [.act 2 .check] ++
        Event.proceeds 2)
      (fun _ c => decide
        (c.pending = .done ∧ c.session.phase = .flop))
      (by decide +kernel) with
    ⟨trace, c, run, hTest⟩
  rcases of_decide_eq_true hTest with ⟨hDone, hPhase⟩
  exact ⟨trace, c, run, hDone, hPhase,
    run.cardsInOrder (by simp [hDone])⟩

end Server

end Poker

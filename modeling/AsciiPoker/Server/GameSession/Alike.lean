import AsciiPoker.Server.GameSession.Cards

/-
  Sessions that look alike to a player.

  Two sessions are alike to a player when they differ in the
  hands of others, the deck, the noted bankrolls and the log
  alone, and he was sent the same messages as far as the
  same cards came on the board.  Every function of a hand
  keeps two sessions alike until the hand comes to its
  showdown.

  Main declarations:
    * `ServerMessage.ofHand`, `GameSession.seenBy`
    * `GameSession.Hidden`, `GameSession.Alike`
    * `GameSession.Alike.awardAllPots` and its siblings
    * `GameSession.SameTable`, `GameSession.SameTable.start`
-/

------------------------------------------------------------
-- Messages of a Hand
------------------------------------------------------------

namespace Poker

namespace Protocol

/-
  Whether a message tells of a hand in progress: a
  `GameStateUpdate`, `YourTurn`, `ActionEvent` or `Error`.
-/
def ServerMessage.ofHand : ServerMessage → Bool
| .welcome _ => false
| .roomList _ => false
| .joinedRoom _ => false
| .gameStateUpdate _ => true
| .yourTurn _ => true
| .error _ => true
| .leftRoom _ => false
| .handResult _ => false
| .actionEvent _ => true

end Protocol

namespace Server

open Protocol

/- The message of a hand that an effect sends to a player. -/
def Effect.seenBy
    (p : PlayerId) : Effect → Option ServerMessage
| .send player msg =>
    if player = p ∧ msg.ofHand then some msg else none
| .updateChips _ _ => none

/- Results are left out: they are sent after the showdown. -/
@[simp] theorem Effect.seenBy_handResult
    (p player : PlayerId)
    (result : HandResult) :
    Effect.seenBy p (.send player (.handResult result)) =
      none := by
  simp [Effect.seenBy, ServerMessage.ofHand]

namespace GameSession

/- The messages of hands sent to a player, oldest first. -/
def seenBy
    (s : GameSession)
    (p : PlayerId) : List ServerMessage :=
  s.log.filterMap (Effect.seenBy p)

------------------------------------------------------------
-- Hidden Parts
------------------------------------------------------------

/- What two sessions may differ in that look alike. -/
structure Hidden where
  hands : KeyMap PlayerId (List Card)
  deck : List Card
  communityCards : List Card
  bankrolls : KeyMap String UInt32
  log : List Effect

/- A session with other hidden parts. -/
def withHidden
    (s : GameSession)
    (h : Hidden) : GameSession :=
  { s with
    hands := h.hands
    deck := h.deck
    communityCards := h.communityCards
    bankrolls := h.bankrolls
    log := h.log }

section WithHidden

variable (s : GameSession)
variable (h : Hidden)

/- Who acts does not depend on cards. -/
theorem postflopLoop_withHidden
    (first rounds index : Nat) :
    (s.withHidden h).postflopLoop first rounds index =
      s.postflopLoop first rounds index := by
  induction rounds generalizing index with
  | zero => rfl
  | succ rounds ih =>
      unfold postflopLoop
      simp only [ih]
      rfl

/- So it is with the first to act. -/
theorem firstToActPostflop_withHidden :
    (s.withHidden h).firstToActPostflop =
      s.firstToActPostflop :=
  s.postflopLoop_withHidden h _ _ _

/- And with the next one. -/
theorem nextActiveLoop_withHidden
    (rounds index : Nat) :
    (s.withHidden h).nextActiveLoop rounds index =
      s.nextActiveLoop rounds index := by
  induction rounds generalizing index with
  | zero => rfl
  | succ rounds ih =>
      unfold nextActiveLoop
      simp only [ih]
      rfl

/- He is found at the same seat. -/
theorem advanceToNextPlayer_withHidden :
    (s.withHidden h).advanceToNextPlayer =
      s.advanceToNextPlayer.withHidden h := by
  have hIndex : (s.withHidden h).findNextActivePlayer =
      s.findNextActivePlayer := by
    unfold findNextActivePlayer
    rw [nextActiveLoop_withHidden]
    rfl
  unfold advanceToNextPlayer
  rw [hIndex]
  rfl

/- Bets decide when a round is over, not cards. -/
theorem roundCompleteLoop_withHidden
    (ps : List PlayerId) :
    (s.withHidden h).roundCompleteLoop ps =
      s.roundCompleteLoop ps := by
  induction ps with
  | nil => rfl
  | cons p ps ih =>
      unfold roundCompleteLoop
      rw [ih]
      rfl

/- For all the seats. -/
theorem isRoundComplete_withHidden :
    (s.withHidden h).isRoundComplete = s.isRoundComplete := by
  unfold isRoundComplete
  rw [roundCompleteLoop_withHidden]
  rfl

/- Chips move alike. -/
theorem contribute_withHidden
    (p : PlayerId)
    (amount : UInt32) :
    (s.withHidden h).contribute p amount =
      (s.contribute p amount).withHidden h := by
  by_cases hBroke : (s.moveToPot p
      (s.actualAmount p amount)).chips.get p = 0
  · have hHere : s.contribute p amount = _ := if_pos hBroke
    rw [hHere]
    exact if_pos hBroke
  · have hHere : s.contribute p amount = _ := if_neg hBroke
    rw [hHere]
    exact if_neg hBroke

/- An action is judged by what everybody sees. -/
theorem performAction_withHidden
    (p : PlayerId)
    (action : Action)
    (amount : Option UInt32) :
    (s.withHidden h).performAction p action amount =
      (s.performAction p action amount).map
        (withHidden · h) := by
  cases action with
  | fold => rfl
  | check =>
      unfold performAction
      simp only [apply_ite (Except.map (withHidden · h))]
      rfl
  | call =>
      unfold performAction
      simp only [contribute_withHidden,
        apply_ite (Except.map (withHidden · h))]
      rfl
  | raise =>
      unfold performAction applyRaise
      cases amount with
      | none => rfl
      | some total =>
          simp only [contribute_withHidden,
            apply_ite (Except.map (withHidden · h))]
          rfl

/- Face down, the players of a table look the same. -/
theorem buildPlayerStates_withHidden :
    (s.withHidden h).buildPlayerStates false =
      s.buildPlayerStates false := by
  unfold buildPlayerStates
  apply congrArg (fun f => List.mapM f s.players.zipIdx)
  funext seat
  unfold playerState
  simp only [Bool.false_eq_true, false_and, if_false]
  rfl

end WithHidden

------------------------------------------------------------
-- Sessions that Look Alike
------------------------------------------------------------

/-
  To player `p` the sessions look alike: they agree in all
  that is not hidden and in his hand, and since he had seen
  `before` in one and `before'` in the other he was sent the
  same messages, if the same cards came on the board.
-/
structure Alike
    (p : PlayerId)
    (before before' : List ServerMessage)
    (s t : GameSession) : Prop where
  shown : ∃ h, t = s.withHidden h
  own : t.hands.find p = s.hands.find p
  seen : t.communityCards = s.communityCards →
    ∃ messages,
      s.seenBy p = before ++ messages ∧
        t.seenBy p = before' ++ messages

section Alike

variable {p : PlayerId}
variable {before before' : List ServerMessage}
variable {s t : GameSession}

/- A change of what is shown alone. -/
theorem Alike.keep
    {h : Hidden}
    (hAlike : Alike p before before' s (s.withHidden h))
    {u : GameSession}
    (hHands : u.hands = s.hands)
    (hBoard : u.communityCards = s.communityCards)
    (hLog : u.log = s.log) :
    Alike p before before' u (u.withHidden h) := by
  rcases hAlike with ⟨_, hOwn, hSeen⟩
  refine ⟨⟨h, rfl⟩, ?_, ?_⟩
  · rw [hHands]
    exact hOwn
  · unfold seenBy at hSeen ⊢
    rw [hBoard, hLog]
    exact hSeen

/- Both tables have the same seats. -/
theorem Alike.players_eq
    (hAlike : Alike p before before' s t) :
    t.players = s.players := by
  rcases hAlike.shown with ⟨h, rfl⟩
  rfl

/- And as many players in the hand. -/
theorem Alike.countActivePlayers_eq
    (hAlike : Alike p before before' s t) :
    t.countActivePlayers = s.countActivePlayers := by
  rcases hAlike.shown with ⟨h, rfl⟩
  rfl

/- Effects of which `p` sees the same. -/
theorem Alike.append
    (hAlike : Alike p before before' s t)
    {bankrolls bankrolls' : KeyMap String UInt32}
    {entries entries' : List Effect}
    (hSame : t.communityCards = s.communityCards →
      entries'.filterMap (Effect.seenBy p) =
        entries.filterMap (Effect.seenBy p)) :
    Alike p before before'
      { s with
        bankrolls := bankrolls
        log := s.log ++ entries }
      { t with
        bankrolls := bankrolls'
        log := t.log ++ entries' } := by
  rcases hAlike with ⟨⟨h, rfl⟩, hOwn, hSeen⟩
  refine ⟨⟨⟨h.hands, h.deck, h.communityCards, bankrolls',
    h.log ++ entries'⟩, rfl⟩, hOwn, fun hBoard => ?_⟩
  rcases hSeen hBoard with ⟨messages, hS, hT⟩
  refine ⟨messages ++ entries.filterMap (Effect.seenBy p),
    ?_, ?_⟩
  · unfold seenBy at hS ⊢
    rw [List.filterMap_append, hS, List.append_assoc]
  · unfold seenBy at hT ⊢
    rw [List.filterMap_append, hT, hSame hBoard,
      List.append_assoc]

/- Both send the same message. -/
theorem Alike.send
    (hAlike : Alike p before before' s t)
    (player : PlayerId)
    (msg : ServerMessage) :
    Alike p before before' (s.send player msg)
      (t.send player msg) :=
  hAlike.append fun _ => rfl

/- A message to everybody, the same one to `p`. -/
theorem Alike.sendAll
    (hAlike : Alike p before before' s t)
    {msg msg' : PlayerId → ServerMessage}
    (hSame : t.communityCards = s.communityCards →
      Effect.seenBy p (.send p (msg' p)) =
        Effect.seenBy p (.send p (msg p))) :
    Alike p before before' (s.sendAll msg)
      (t.sendAll msg') := by
  refine hAlike.append fun hBoard => ?_
  rw [hAlike.players_eq, List.filterMap_map, List.filterMap_map]
  apply List.filterMap_congr
  intro q _
  by_cases hEq : q = p
  · rw [hEq]
    exact hSame hBoard
  · simp [Effect.seenBy, hEq]

/- Nobody sees chips being persisted. -/
theorem persistPlayerChips_unseen
    (s : GameSession)
    (player : PlayerId) :
    ∃ bankrolls entries,
      s.persistPlayerChips player =
        { s with
          bankrolls := bankrolls
          log := s.log ++ entries } ∧
      ∀ p, entries.filterMap (Effect.seenBy p) = [] := by
  have hNothing : s = { s with
      bankrolls := s.bankrolls
      log := s.log ++ [] } := by
    rw [List.append_nil]
  unfold persistPlayerChips
  by_cases hRepository : s.hasRepository
  · rw [if_pos hRepository]
    cases s.chips.find player with
    | none => exact ⟨_, _, hNothing, fun _ => rfl⟩
    | some chips => exact ⟨_, _, rfl, fun _ => rfl⟩
  · rw [if_neg hRepository]
    exact ⟨_, _, hNothing, fun _ => rfl⟩

/- Both store the same chips. -/
theorem Alike.persistPlayerChips
    (hAlike : Alike p before before' s t)
    (player : PlayerId) :
    Alike p before before' (s.persistPlayerChips player)
      (t.persistPlayerChips player) := by
  rcases s.persistPlayerChips_unseen player with
    ⟨_, _, hS, hUnseen⟩
  rcases t.persistPlayerChips_unseen player with
    ⟨_, _, hT, hUnseen'⟩
  rw [hS, hT]
  exact hAlike.append fun _ =>
    (hUnseen' p).trans (hUnseen p).symm

/- By induction over the seats. -/
theorem Alike.persistAllChips
    (hAlike : Alike p before before' s t) :
    Alike p before before' s.persistAllChips
      t.persistAllChips := by
  unfold GameSession.persistAllChips
  rw [hAlike.players_eq]
  generalize s.players = ps
  induction ps generalizing s t with
  | nil => exact hAlike
  | cons q ps ih => exact ih (hAlike.persistPlayerChips q)

/- While no hands are shown, a broadcast tells `p` the same. -/
theorem Alike.broadcastState
    (hAlike : Alike p before before' s t)
    (hFaceDown : s.phase ≠ .showdown) :
    Except.Agree (Alike p before before') s.broadcastState
      t.broadcastState := by
  have hOwn : t.hands.get p = s.hands.get p := by
    unfold KeyMap.get
    rw [hAlike.own]
  rcases hAlike.shown with ⟨h, rfl⟩
  unfold GameSession.broadcastState
  have hReveal : decide (s.phase = .showdown) = false :=
    decide_eq_false hFaceDown
  have hReveal' :
      decide ((s.withHidden h).phase = .showdown) = false :=
    hReveal
  simp only [hReveal, hReveal']
  refine (Except.agree_of_eq
    (s.buildPlayerStates_withHidden h)).bind ?_
  rintro states _ rfl
  refine (Except.agree_of_eq
    (rfl : (s.withHidden h).playerAt _ = s.playerAt _)).bind ?_
  rintro active _ rfl
  refine Except.agree_ok (hAlike.sendAll fun hBoard => ?_)
  rw [hOwn, hBoard]
  rfl

------------------------------------------------------------
-- Asking and Advancing
------------------------------------------------------------

/- Two results that leave the same call and look alike. -/
def AlikeResult
    (p : PlayerId)
    (before before' : List ServerMessage)
    (x y : GameSession × Pending) : Prop :=
  y.2 = x.2 ∧ Alike p before before' x.1 y.1

/- Both close the round or neither. -/
theorem Alike.closeRoundOrAsk
    (hAlike : Alike p before before' s t) :
    Except.Agree (AlikeResult p before before')
      s.closeRoundOrAsk t.closeRoundOrAsk := by
  have hComplete : t.isRoundComplete = s.isRoundComplete := by
    rcases hAlike.shown with ⟨h, rfl⟩
    exact s.isRoundComplete_withHidden h
  unfold GameSession.closeRoundOrAsk
  refine (Except.agree_of_eq hComplete).bind ?_
  rintro complete _ rfl
  cases complete with
  | true => exact Except.agree_ok ⟨rfl, hAlike⟩
  | false => exact Except.agree_ok ⟨rfl, hAlike⟩

/- The turn goes to the same seat. -/
theorem Alike.advanceToNextPlayer
    (hAlike : Alike p before before' s t) :
    Alike p before before' s.advanceToNextPlayer
      t.advanceToNextPlayer := by
  rcases hAlike.shown with ⟨h, rfl⟩
  rw [advanceToNextPlayer_withHidden]
  exact hAlike.keep rfl rfl rfl

/- The same player is asked the same. -/
theorem Alike.askCurrentPlayer
    (hAlike : Alike p before before' s t) :
    Except.Agree (AlikeResult p before before')
      s.askCurrentPlayer t.askCurrentPlayer := by
  have hAdvanced := hAlike.advanceToNextPlayer
  have hSent := hAlike.send
  rcases hAlike.shown with ⟨h, rfl⟩
  unfold GameSession.askCurrentPlayer
  refine (Except.agree_of_eq
    (rfl : (s.withHidden h).playerAt _ = s.playerAt _)).bind ?_
  rintro current _ rfl
  by_cases hAct : s.canPlayerAct current
  · have hAct' : (s.withHidden h).canPlayerAct current := hAct
    rw [if_neg (not_not.mpr hAct), if_neg (not_not.mpr hAct')]
    exact Except.agree_ok ⟨rfl, hSent current _⟩
  · have hAct' : ¬ (s.withHidden h).canPlayerAct current :=
      hAct
    rw [if_pos hAct, if_pos hAct']
    exact hAdvanced.closeRoundOrAsk

/- The streets of one phase with their own cards. -/
theorem Alike.openStreet
    (hAlike : Alike p before before' s t)
    {dealt dealt' : List Card}
    (hLength : dealt.length = dealt'.length)
    (rest rest' : List Card)
    (phase : GamePhase) :
    Alike p before before' (s.openStreet dealt rest phase)
      (t.openStreet dealt' rest' phase) := by
  rcases hAlike with ⟨⟨h, rfl⟩, hOwn, hSeen⟩
  refine ⟨⟨⟨h.hands, rest', h.communityCards ++ dealt',
    h.bankrolls, h.log⟩, ?_⟩, hOwn, fun hBoard => ?_⟩
  · have hFirst := firstToActPostflop_withHidden
      { s with
        deck := rest
        communityCards := s.communityCards ++ dealt
        phase := phase }
      ⟨h.hands, rest', h.communityCards ++ dealt',
        h.bankrolls, h.log⟩
    unfold GameSession.openStreet
    dsimp only
    rw [← hFirst]
    rfl
  · -- Boards that agree now agreed before the street.
    have hBoards : h.communityCards ++ dealt' =
        s.communityCards ++ dealt := hBoard
    exact hSeen (List.append_inj' hBoards hLength.symm).1

/- The board is shared, so it is dealt alike. -/
theorem Alike.dealStreet
    (hAlike : Alike p before before' s t)
    (count : Nat)
    {phase : GamePhase}
    (hFaceDown : phase ≠ .showdown) :
    Except.Agree (AlikeResult p before before')
      (s.dealStreet count phase) (t.dealStreet count phase) := by
  have hCards : Except.Agree
      (fun x y => x.1.length = y.1.length)
      (require Exn.deckEmpty (Deck.deal s.deck count))
      (require Exn.deckEmpty (Deck.deal t.deck count)) := by
    intro x y hS hT
    rw [(Deck.deal_eq_some (require_eq_ok.mp hS)).2,
      (Deck.deal_eq_some (require_eq_ok.mp hT)).2]
  unfold GameSession.dealStreet
  refine hCards.bind ?_
  rintro ⟨dealt, rest⟩ ⟨dealt', rest'⟩ hLength
  have hOpen := hAlike.openStreet hLength rest rest' phase
  refine (hOpen.broadcastState hFaceDown).bind ?_
  intro u v hSent
  exact Except.agree_ok ⟨rfl, hSent⟩

/- Both go on to the same street. -/
theorem Alike.nextPhase
    (hAlike : Alike p before before' s t) :
    Except.Agree (AlikeResult p before before')
      s.nextPhase t.nextPhase := by
  have hCleared : Alike p before before' s.clearBets
      t.clearBets := by
    rcases hAlike.shown with ⟨h, rfl⟩
    exact hAlike.keep rfl rfl rfl
  have hPhase : t.phase = s.phase := by
    rcases hAlike.shown with ⟨h, rfl⟩
    rfl
  unfold GameSession.nextPhase
  rw [hAlike.countActivePlayers_eq, hPhase]
  by_cases hOne : s.countActivePlayers = 1
  · rw [if_pos hOne, if_pos hOne]
    exact Except.agree_ok ⟨rfl, hAlike⟩
  · rw [if_neg hOne, if_neg hOne]
    cases s.phase with
    | preFlop => exact hCleared.dealStreet 3 (by decide)
    | flop => exact hCleared.dealStreet 1 (by decide)
    | turn => exact hCleared.dealStreet 1 (by decide)
    | river => exact Except.agree_ok ⟨rfl, hCleared⟩
    | showdown => exact Except.agree_ok ⟨rfl, hCleared⟩

------------------------------------------------------------
-- Actions
------------------------------------------------------------

/- An action has the same consequences. -/
theorem Alike.afterAction
    (hAlike : Alike p before before' s t)
    (current : PlayerId)
    (action : Action)
    (amount : Option UInt32) :
    Except.Agree (AlikeResult p before before')
      (s.afterAction current action amount)
      (t.afterAction current action amount) := by
  have hRecorded : Alike p before before'
      (s.recordPlayerAction current action)
      (t.recordPlayerAction current action) := by
    rcases hAlike.shown with ⟨h, rfl⟩
    exact hAlike.keep rfl rfl rfl
  have hTold : Alike p before before'
      ((s.recordPlayerAction current action)
        |>.broadcastActionEvent (s.names current) action amount)
      ((t.recordPlayerAction current action)
        |>.broadcastActionEvent (t.names current) action
          amount) := by
    refine hRecorded.sendAll fun _ => ?_
    rcases hAlike.shown with ⟨h, rfl⟩
    rfl
  have hAdvanced := hTold.advanceToNextPlayer.closeRoundOrAsk
  unfold GameSession.afterAction
  dsimp only
  rw [hTold.countActivePlayers_eq]
  split
  · exact Except.agree_ok ⟨rfl, hTold⟩
  · exact hAdvanced

/- It is accepted by both or by neither. -/
theorem Alike.applyAction
    (hAlike : Alike p before before' s t)
    (connection : ConnId)
    (action : Action)
    (amount : Option UInt32) :
    Except.Agree (AlikeResult p before before')
      (s.applyAction connection action amount)
      (t.applyAction connection action amount) := by
  rcases hAlike.shown with ⟨h, rfl⟩
  unfold GameSession.applyAction
  have hPlayer : (s.withHidden h).getPlayer connection =
      s.getPlayer connection := rfl
  rw [hPlayer]
  cases s.getPlayer connection with
  | none => exact Except.agree_ok ⟨rfl, hAlike⟩
  | some current =>
      refine (Except.agree_of_eq
        (rfl : (s.withHidden h).playerAt _ = s.playerAt _)).bind
        ?_
      rintro onTurn _ rfl
      by_cases hTurn : onTurn = current
      · rw [if_neg (not_not.mpr hTurn),
          if_neg (not_not.mpr hTurn), performAction_withHidden]
        cases hActs : s.performAction current action amount with
        | error code =>
            exact Except.agree_ok ⟨rfl, hAlike.send current _⟩
        | ok u =>
            refine Alike.afterAction ?_ current action amount
            have hActs' := acts_of_ok hActs
            exact hAlike.keep hActs'.sameCards.hands
              hActs'.sameCards.communityCards hActs'.log_eq
      · rw [if_pos hTurn, if_pos hTurn]
        exact Except.agree_ok ⟨rfl, hAlike.send current _⟩

------------------------------------------------------------
-- Departures
------------------------------------------------------------

/- Whoever leaves folds at both. -/
theorem Alike.foldLeaver
    (hAlike : Alike p before before' s t)
    (player : PlayerId) :
    Alike p before before' (s.foldLeaver player)
      (t.foldLeaver player) := by
  rcases hAlike.shown with ⟨h, rfl⟩
  exact hAlike.keep rfl rfl rfl

/- The calls that follow are the same. -/
theorem Alike.beginRemoval
    (hAlike : Alike p before before' s t)
    (leaver : Leaver) :
    AlikeResult p before before' (s.beginRemoval leaver)
      (t.beginRemoval leaver) := by
  have hFolded := hAlike.foldLeaver leaver.player
  unfold GameSession.beginRemoval
  dsimp only
  rw [hFolded.countActivePlayers_eq]
  split
  · exact ⟨rfl, hFolded⟩
  · exact ⟨rfl, hFolded⟩

/- A departure is that of the same seat. -/
theorem Alike.removePlayer
    (hAlike : Alike p before before' s t)
    (connection : ConnId) :
    Except.Agree (AlikeResult p before before')
      (s.removePlayer connection)
      (t.removePlayer connection) := by
  rcases hAlike.shown with ⟨h, rfl⟩
  unfold GameSession.removePlayer
  have hPlayer : (s.withHidden h).getPlayer connection =
      s.getPlayer connection := rfl
  rw [hPlayer]
  cases s.getPlayer connection with
  | none => exact Except.agree_ok ⟨rfl, hAlike⟩
  | some player =>
      have hIndex : (s.withHidden h).players.idxOf? player =
          s.players.idxOf? player := rfl
      dsimp only
      rw [hIndex]
      cases s.players.idxOf? player with
      | none => exact Except.agree_ok ⟨rfl, hAlike⟩
      | some removedIndex =>
          refine (Except.agree_of_eq
            (rfl : (s.withHidden h).playerAt _ =
              s.playerAt _)).bind ?_
          rintro current _ rfl
          exact Except.agree_ok (hAlike.beginRemoval _)

/- Whoever leaves takes his own cards with him. -/
theorem Alike.eraseLeaver
    (hAlike : Alike p before before' s t)
    (leaver : Leaver) :
    Alike p before before' (s.eraseLeaver leaver)
      (t.eraseLeaver leaver) := by
  have hSaved := hAlike.persistPlayerChips leaver.player
  unfold GameSession.eraseLeaver erasePlayerState
  generalize s.persistPlayerChips leaver.player = u at hSaved
  generalize t.persistPlayerChips leaver.player = v at hSaved
  rcases hSaved with ⟨⟨h, rfl⟩, hOwn, hSeen⟩
  refine ⟨⟨⟨h.hands.erase leaver.player, h.deck,
    h.communityCards, h.bankrolls, h.log⟩, rfl⟩, ?_, hSeen⟩
  dsimp only
  rw [KeyMap.find_erase, KeyMap.find_erase, hOwn]

/- The hand goes on alike. -/
theorem Alike.continueAfterPlayerLeft
    (hAlike : Alike p before before' s t)
    (hFaceDown : s.phase ≠ .showdown)
    (wasCurrent : Bool) :
    Except.Agree (AlikeResult p before before')
      (s.continueAfterPlayerLeft wasCurrent)
      (t.continueAfterPlayerLeft wasCurrent) := by
  have hComplete : t.isRoundComplete = s.isRoundComplete := by
    rcases hAlike.shown with ⟨h, rfl⟩
    exact s.isRoundComplete_withHidden h
  unfold GameSession.continueAfterPlayerLeft
  refine (Except.agree_of_eq hComplete).bind ?_
  rintro complete _ rfl
  cases hGoesOn : wasCurrent || complete with
  | true =>
      cases complete with
      | true => exact Except.agree_ok ⟨rfl, hAlike⟩
      | false => exact Except.agree_ok ⟨rfl, hAlike⟩
  | false =>
      refine (hAlike.broadcastState hFaceDown).bind ?_
      intro u v hSent
      exact Except.agree_ok ⟨rfl, hSent⟩

/- Without the seat, the tables are alike. -/
theorem Alike.finishRemoval
    (hAlike : Alike p before before' s t)
    (hFaceDown : s.phase ≠ .showdown)
    (leaver : Leaver) :
    Except.Agree (AlikeResult p before before')
      (s.finishRemoval leaver) (t.finishRemoval leaver) := by
  have hErased := hAlike.eraseLeaver leaver
  have hVacated : Alike p before before' (s.vacate leaver)
      (t.vacate leaver) := by
    unfold vacate
    rcases hErased.shown with ⟨h, hEq⟩
    rw [hEq] at hErased ⊢
    exact hErased.keep rfl rfl rfl
  have hPhase : (s.vacate leaver).phase ≠ .showdown := by
    rw [vacate_phase]
    exact hFaceDown
  have hEnough : (t.vacate leaver).hasEnoughPlayers ↔
      (s.vacate leaver).hasEnoughPlayers := by
    unfold hasEnoughPlayers
    rw [hVacated.players_eq]
  unfold GameSession.finishRemoval
  dsimp only
  rw [hErased.players_eq]
  split
  · exact Except.agree_ok ⟨rfl, hErased⟩
  change Except.Agree (AlikeResult p before before')
    (if ¬ (s.vacate leaver).hasEnoughPlayers then
      .ok (s.vacate leaver, .done)
    else if (s.vacate leaver).countActivePlayers = 1 then
      .ok (s.vacate leaver, .resume .tryStartNewHand)
    else
      (s.vacate leaver).continueAfterPlayerLeft
        leaver.wasCurrent)
    (if ¬ (t.vacate leaver).hasEnoughPlayers then
      .ok (t.vacate leaver, .done)
    else if (t.vacate leaver).countActivePlayers = 1 then
      .ok (t.vacate leaver, .resume .tryStartNewHand)
    else
      (t.vacate leaver).continueAfterPlayerLeft
        leaver.wasCurrent)
  simp only [hEnough, hVacated.countActivePlayers_eq]
  split
  · exact Except.agree_ok ⟨rfl, hVacated⟩
  split
  · exact Except.agree_ok ⟨rfl, hVacated⟩
  · exact hVacated.continueAfterPlayerLeft hPhase _

------------------------------------------------------------
-- Settlement without a Showdown
------------------------------------------------------------

/- Two awards that pay the same, before any hand is shown. -/
structure AlikeAward
    (p : PlayerId)
    (before before' : List ServerMessage)
    (x y : Award) : Prop where
  session : Alike p before before' x.session y.session
  names : y.winnerNames = x.winnerNames
  total : y.totalAwarded = x.totalAwarded
  faceDown : x.session.phase ≠ .showdown

/- The same chips are paid out. -/
theorem Alike.credit
    (hAlike : Alike p before before' s t)
    (player : PlayerId)
    (amount : UInt32) :
    Alike p before before' (s.credit player amount)
      (t.credit player amount) := by
  rcases hAlike.shown with ⟨h, rfl⟩
  exact hAlike.keep rfl rfl rfl

/- To the same winner, by the same name. -/
theorem AlikeAward.payWinner
    {x y : Award}
    (hAlike : AlikeAward p before before' x y)
    (share : UInt32)
    (winner : PlayerId) :
    Except.Agree (AlikeAward p before before')
      (payWinner share x winner) (payWinner share y winner) := by
  have hPaid := hAlike.session.credit winner share
  have hName : y.session.names = x.session.names := by
    rcases hAlike.session.shown with ⟨h, hEq⟩
    rw [hEq]
    rfl
  have hSame : (y.session.credit winner share).names winner =
      (x.session.credit winner share).names winner :=
    congrFun hName winner
  unfold GameSession.payWinner
  dsimp only
  rw [hSame, hAlike.names]
  split
  · exact Except.agree_ok
      ⟨hPaid, rfl, hAlike.total, hAlike.faceDown⟩
  · -- The labels may differ; they go into no such message.
    have hLabel : Except.Agree (fun _ _ => True)
        ((x.session.credit winner share).winnerHandLabel winner)
        ((y.session.credit winner share).winnerHandLabel
          winner) :=
      fun _ _ _ _ => trivial
    refine hLabel.bind fun _ _ _ => ?_
    exact Except.agree_ok
      ⟨hPaid, rfl, hAlike.total, hAlike.faceDown⟩

/- A pot with one contender at most: no hand decides it. -/
theorem AlikeAward.payPot
    {x y : Award}
    (hAlike : AlikeAward p before before' x y)
    (sidePot : SidePot)
    (hOne : sidePot.eligiblePlayerIndices.length ≤ 1) :
    Except.Agree (AlikeAward p before before')
      (payPot x sidePot) (payPot y sidePot) := by
  have hSeats : y.session.playerAt = x.session.playerAt := by
    funext i
    unfold playerAt
    rw [hAlike.session.players_eq]
  have hContenders : Except.Agree
      (fun u v => u = v ∧ u.length ≤ 1)
      (sidePot.eligiblePlayerIndices.mapM x.session.playerAt)
      (sidePot.eligiblePlayerIndices.mapM
        y.session.playerAt) := by
    intro u v hU hV
    refine ⟨Except.agree_of_eq (by rw [hSeats]) u v hU hV, ?_⟩
    rw [(contenders_of_ok hU).1]
    exact hOne
  unfold GameSession.payPot
  refine hContenders.bind ?_
  rintro contenders _ ⟨rfl, hFew⟩
  cases contenders with
  | nil => exact Except.agree_ok hAlike
  | cons winner others =>
      have hAlone : others = [] := by
        apply List.eq_nil_of_length_eq_zero
        rw [List.length_cons] at hFew
        omega
      subst hAlone
      by_cases hEmpty : sidePot.amount = 0
      · simp only [findWinnersAmong, Except.ok_bind,
          if_pos hEmpty]
        exact Except.agree_ok hAlike
      · simp only [findWinnersAmong, Except.ok_bind,
          if_neg hEmpty]
        refine (List.agree_foldlM
          (fun w _ u v hRel => hRel.payWinner _ w)
          hAlike).bind ?_
        intro u v hPaid
        refine Except.agree_ok ⟨?_, hPaid.names, ?_, ?_⟩
        · dsimp only
          split
          · exact hPaid.session.credit _ _
          · exact hPaid.session
        · dsimp only
          rw [hPaid.total]
        · dsimp only
          split
          · exact hPaid.faceDown
          · exact hPaid.faceDown

/- And the result says the same. -/
theorem AlikeAward.announceAward
    {x y : Award}
    (hAlike : AlikeAward p before before' x y) :
    Except.Agree (Alike p before before') (announceAward x)
      (announceAward y) := by
  unfold GameSession.announceAward
  rw [hAlike.names]
  split
  · have hSaved := hAlike.session.persistAllChips
    have hPhase : x.session.persistAllChips.phase ≠
        .showdown := by
      rw [x.session.persistAllChips_quiet.sameCards.phase]
      exact hAlike.faceDown
    refine (hSaved.broadcastState hPhase).bind ?_
    intro u v hSent
    refine Except.agree_ok (hSent.sendAll fun _ => ?_)
    rw [Effect.seenBy_handResult, Effect.seenBy_handResult]
  · exact Except.agree_ok hAlike.session

/- The seats still in the hand are the active players. -/
theorem length_unfolded
    (s : GameSession) :
    (SidePots.unfolded s.potPlayerStates).length =
      s.countActivePlayers := by
  have hStates :
      (List.range s.potPlayerStates.length).map
        (fun i => s.potPlayerStates.getD i {}) =
        s.potPlayerStates := by
    apply List.ext_getElem
    · simp
    · intro i h h'
      simp [h']
  have hCount := congrArg
    (List.countP fun state => !state.folded) hStates
  rw [List.countP_map] at hCount
  calc (SidePots.unfolded s.potPlayerStates).length
    _ = (List.range s.potPlayerStates.length).countP
          (fun i => !(s.potPlayerStates.getD i {}).folded) :=
        List.countP_eq_length_filter.symm
    _ = s.potPlayerStates.countP (fun state => !state.folded) :=
        hCount
    _ = s.countActivePlayers := by
        unfold potPlayerStates countActivePlayers
        rw [List.countP_map]
        simp [Function.comp_def]

/- One player is left, so no cards are compared. -/
theorem Alike.awardAllPots
    (hAlike : Alike p before before' s t)
    (hFaceDown : s.phase ≠ .showdown)
    (hOne : s.countActivePlayers = 1) :
    Except.Agree (Alike p before before') s.awardAllPots
      t.awardAllPots := by
  have hPot : t.pot = s.pot ∧
      t.potPlayerStates = s.potPlayerStates := by
    rcases hAlike.shown with ⟨h, rfl⟩
    exact ⟨rfl, rfl⟩
  unfold GameSession.awardAllPots
  rw [hPot.1, hPot.2]
  split
  · exact Except.agree_ok hAlike
  have hPaid : Except.Agree (AlikeAward p before before')
      ((computeSidePots s.potPlayerStates).foldlM payPot
        { session := s })
      ((computeSidePots s.potPlayerStates).foldlM payPot
        { session := t }) := by
    refine List.agree_foldlM ?_ ⟨hAlike, rfl, rfl, hFaceDown⟩
    intro sidePot hMem u v hRel
    refine hRel.payPot sidePot ?_
    have hSub := SidePots.eligible_loop_sublist hMem
    rw [← hOne, ← length_unfolded]
    exact hSub.1.length_le
  refine hPaid.bind fun x y hAward => ?_
  refine hAward.announceAward.bind fun u v hSent => ?_
  rcases hSent.shown with ⟨h, rfl⟩
  exact Except.agree_ok (hSent.keep rfl rfl rfl)

/- Both start a hand or neither. -/
theorem Alike.tryStartNewHand
    (hAlike : Alike p before before' s t) :
    AlikeResult p before before' s.tryStartNewHand
      t.tryStartNewHand := by
  rcases hAlike.shown with ⟨h, rfl⟩
  unfold GameSession.tryStartNewHand
  by_cases hEnough : s.hasEnoughPlayers
  · have hEnough' : (s.withHidden h).hasEnoughPlayers := hEnough
    rw [if_neg (not_not.mpr hEnough),
      if_neg (not_not.mpr hEnough')]
    by_cases hChips : s.countPlayersWithChips < 2
    · have hChips' :
          (s.withHidden h).countPlayersWithChips < 2 := hChips
      rw [if_pos hChips, if_pos hChips']
      exact ⟨rfl, hAlike⟩
    · have hChips' :
          ¬ (s.withHidden h).countPlayersWithChips < 2 := hChips
      rw [if_neg hChips, if_neg hChips']
      exact ⟨rfl, hAlike.keep rfl rfl rfl⟩
  · have hEnough' : ¬ (s.withHidden h).hasEnoughPlayers :=
      hEnough
    rw [if_pos hEnough, if_pos hEnough']
    exact ⟨rfl, hAlike⟩

end Alike

------------------------------------------------------------
-- The Deal
------------------------------------------------------------

/-
  Two sessions with the same players, stacks and everything
  else that is not hidden.
-/
structure SameTable
    (s t : GameSession) : Prop where
  shown : ∃ h, t = s.withHidden h
  stackOf_eq : ∀ q, t.stackOf q = s.stackOf q

section Deal

variable {s t : GameSession}

/- Whoever is dealt in brings the same stack to both tables. -/
theorem SameTable.dealPlayer
    (hSame : s.SameTable t)
    (q : PlayerId) :
    Except.Agree
      (fun u v => u.SameTable v ∧ u.log = s.log ∧
        v.log = t.log)
      (s.dealPlayer q) (t.dealPlayer q) := by
  intro u v hU hV
  rcases dealPlayer_of_ok hU with ⟨deck, hand, _, _, rfl⟩
  rcases dealPlayer_of_ok hV with ⟨deck', hand', _, _, rfl⟩
  refine ⟨⟨?_, fun r => ?_⟩, rfl, rfl⟩
  · rw [hSame.stackOf_eq q]
    rcases hSame.shown with ⟨h, rfl⟩
    exact ⟨⟨h.hands.set q hand', deck', h.communityCards,
      h.bankrolls, h.log⟩, rfl⟩
  · have hStack := hSame.stackOf_eq r
    have hHere := hSame.stackOf_eq q
    unfold stackOf at hStack hHere ⊢
    dsimp only
    rw [KeyMap.find_set, KeyMap.find_set]
    by_cases hEq : r = q
    · rw [if_pos hEq, if_pos hEq]
      exact hHere
    · rw [if_neg hEq, if_neg hEq]
      exact hStack

/- The deck differs from the deal on. -/
theorem SameTable.dealt
    (hSame : s.SameTable t)
    {dealt dealt' : GameSession}
    {shuffle shuffle' : Shuffle}
    (hDealt : s.Dealt shuffle dealt)
    (hDealt' : t.Dealt shuffle' dealt') :
    dealt.SameTable dealt' ∧ dealt.log = s.log ∧
      dealt'.log = t.log := by
  have hCleared : (s.clearTable shuffle).SameTable
      (t.clearTable shuffle') := by
    refine ⟨?_, hSame.stackOf_eq⟩
    rcases hSame.shown with ⟨h, rfl⟩
    exact ⟨⟨h.hands, shuffle'.cards, [], h.bankrolls, h.log⟩,
      rfl⟩
  have hPlayers : (t.clearTable shuffle').players =
      (s.clearTable shuffle).players := by
    rcases hSame.shown with ⟨h, rfl⟩
    rfl
  unfold Dealt at hDealt hDealt'
  rw [hPlayers] at hDealt'
  refine List.agree_foldlM
    (R := fun u v => u.SameTable v ∧ u.log = s.log ∧
      v.log = t.log) ?_ ⟨hCleared, rfl, rfl⟩
    dealt dealt' hDealt hDealt'
  rintro q _ u v ⟨hRel, hU, hV⟩ u' v' hOk hOk'
  rcases hRel.dealPlayer q u' v' hOk hOk' with
    ⟨hNext, hU', hV'⟩
  exact ⟨hNext, hU'.trans hU, hV'.trans hV⟩

/- The blinds do not depend on the cards. -/
theorem postBlinds_withHidden
    (s : GameSession)
    (h : Hidden) :
    (s.withHidden h).postBlinds =
      s.postBlinds.map (withHidden · h) := by
  have hSmall : (s.withHidden h).playerAt
      (s.withHidden h).sbIndex = s.playerAt s.sbIndex := rfl
  have hBig : (s.withHidden h).playerAt
      (s.withHidden h).bbIndex = s.playerAt s.bbIndex := rfl
  unfold postBlinds
  rw [hSmall, hBig]
  cases s.playerAt s.sbIndex with
  | error exn => rfl
  | ok sb =>
      cases s.playerAt s.bbIndex with
      | error exn => rfl
      | ok bb =>
          simp only [Except.ok_bind, contribute_withHidden]
          rfl

/- The blinds are posted without a word. -/
theorem postBlinds_log
    {posted : GameSession}
    (hPosted : s.postBlinds = .ok posted) :
    posted.log = s.log := by
  rcases blinds_of_ok hPosted with ⟨sb, bb, _, _, rfl⟩
  exact (contribute_log _ bb _).trans (contribute_log _ sb _)

/- Of the deal, `p` sees what his own hand shows. -/
theorem SameTable.start
    (hSame : s.SameTable t)
    {p : PlayerId}
    {shuffle shuffle' : Shuffle}
    {x y : GameSession × Pending}
    (hX : s.start shuffle = .ok x)
    (hY : t.start shuffle' = .ok y)
    (hOwn : y.1.hands.find p = x.1.hands.find p) :
    AlikeResult p (s.seenBy p) (t.seenBy p) x y := by
  unfold GameSession.start at hX hY
  rcases Except.bind_eq_ok.mp hX with ⟨dealt, hDealt, hX⟩
  rcases Except.bind_eq_ok.mp hX with ⟨posted, hPosted, hX⟩
  rcases Except.bind_eq_ok.mp hX with ⟨u, hSent, hX⟩
  cases hX
  rcases Except.bind_eq_ok.mp hY with ⟨dealt', hDealt', hY⟩
  rcases Except.bind_eq_ok.mp hY with ⟨posted', hPosted', hY⟩
  rcases Except.bind_eq_ok.mp hY with ⟨v, hSent', hY⟩
  cases hY
  rcases hSame.dealt hDealt hDealt' with ⟨hTables, hLog, hLog'⟩
  have hHands : u.hands = posted.hands :=
    ((persistAllChips_quiet _).trans
      (broadcastState_quiet hSent)).sameCards.hands
  have hHands' : v.hands = posted'.hands :=
    ((persistAllChips_quiet _).trans
      (broadcastState_quiet hSent')).sameCards.hands
  have hOpened : Alike p (s.seenBy p) (t.seenBy p)
      posted.openPreFlop posted'.openPreFlop := by
    refine ⟨?_, ?_, fun _ => ⟨[], ?_, ?_⟩⟩
    · rcases hTables.shown with ⟨h, rfl⟩
      rw [postBlinds_withHidden, hPosted] at hPosted'
      cases hPosted'
      exact ⟨h, rfl⟩
    · rw [hHands, hHands'] at hOwn
      exact hOwn
    · rw [List.append_nil]
      exact congrArg (List.filterMap (Effect.seenBy p))
        ((postBlinds_log hPosted).trans hLog)
    · rw [List.append_nil]
      exact congrArg (List.filterMap (Effect.seenBy p))
        ((postBlinds_log hPosted').trans hLog')
  have hPhase : posted.openPreFlop.persistAllChips.phase ≠
      .showdown := by
    rw [(persistAllChips_quiet _).sameCards.phase]
    simp [openPreFlop]
  exact ⟨rfl, hOpened.persistAllChips.broadcastState hPhase
    u v hSent hSent'⟩

end Deal

end GameSession

end Server

end Poker

import AsciiPoker.Common.HandEvaluator
import AsciiPoker.Common.SidePots
import AsciiPoker.Server.GameSession.State

/-
  The functions of a game session (`game_session.cpp`).

  The functions of the source that call one another do so
  at their very end.  Such a function is modelled up to that
  call and returns it as a `Pending`, which the machine of
  `Machine.lean` then runs.  `award_all_pots` is the one
  call with work left after it; that work is the
  `AfterAward` of the pending call.

  Main declarations:
    * `Pending`, `AfterAward`, `Leaver`
    * `GameSession.start`, `GameSession.nextPhase`,
      `GameSession.askCurrentPlayer`
    * `GameSession.applyAction`
    * `GameSession.awardAllPots`, `GameSession.doShowdown`,
      `GameSession.tryStartNewHand`
    * `GameSession.removePlayer`
-/

namespace Poker

namespace Server

open Protocol

------------------------------------------------------------
-- Pending Calls
------------------------------------------------------------

/- The locals of `remove_player` that outlive its award. -/
structure Leaver where
  player : PlayerId
  connection : ConnId
  removedIndex : Nat
  wasCurrent : Bool
  deriving DecidableEq, Repr

/- What follows a call of `award_all_pots`. -/
inductive AfterAward
  | tryStartNewHand
  | finishRemoval (leaver : Leaver)
  deriving DecidableEq, Repr

/- The call a function of the session ends with. -/
inductive Pending
  | done
  | start
  | askCurrentPlayer
  | nextPhase
  | doShowdown
  | handleSingleWinner
  | awardAllPots (next : AfterAward)
  | resume (next : AfterAward)
  deriving DecidableEq, Repr

namespace GameSession

------------------------------------------------------------
-- Broadcasts
------------------------------------------------------------

/- One entry of `build_player_states`. -/
def playerState
    (s : GameSession)
    (revealHoleCards : Bool)
    (p : PlayerId)
    (i : Nat) : Except Exn PlayerState := do
  let chips ← require .outOfRange (s.chips.find p)
  let roundBet ← require .outOfRange (s.roundBets.find p)
  let folded := decide (p ∈ s.foldedPlayers)
  let holeCards ←
    if revealHoleCards ∧ ¬ folded then
      require .outOfRange (s.hands.find p)
    else
      .ok []
  .ok
    { name := s.names p
      chips := chips
      roundBet := roundBet
      folded := folded
      allIn := decide (p ∈ s.allInPlayers)
      isDealer := decide (i = s.dealerIndex)
      isSmallBlind := decide (i = s.sbIndex)
      isBigBlind := decide (i = s.bbIndex)
      holeCards := holeCards }

/- `build_player_states`. -/
def buildPlayerStates
    (s : GameSession)
    (revealHoleCards : Bool) :
    Except Exn (List PlayerState) :=
  s.players.zipIdx.mapM fun seat =>
    s.playerState revealHoleCards seat.1 seat.2

/- `broadcast_state`. -/
def broadcastState
    (s : GameSession) : Except Exn GameSession := do
  let reveal := decide (s.phase = .showdown)
  let playerStates ← s.buildPlayerStates reveal
  let active ← s.playerAt s.currentPlayerIndex
  .ok <| s.sendAll fun p => .gameStateUpdate
    { generalCards := s.communityCards
      yourCards := s.hands.get p
      phase := s.phase
      activePlayerName :=
        if s.canPlayerAct active then s.names active else ""
      totalPot := s.pot
      currentBet := s.currentBet
      players := playerStates }

/- `broadcast_action_event`. -/
def broadcastActionEvent
    (s : GameSession)
    (playerName : String)
    (action : Action)
    (amount : Option UInt32) : GameSession :=
  s.sendAll fun _ =>
    .actionEvent ⟨playerName, action, amount⟩

/- `broadcast_hand_result`. -/
def broadcastHandResult
    (s : GameSession)
    (winnerNames winnerHandLabels : List String)
    (amount : UInt32) : GameSession :=
  s.sendAll fun _ =>
    .handResult ⟨winnerNames, amount, winnerHandLabels⟩

/- `persist_player_chips`. -/
def persistPlayerChips
    (s : GameSession)
    (player : PlayerId) : GameSession :=
  if s.hasRepository then
    match s.chips.find player with
    | none => s
    | some chips =>
        { s with
          bankrolls := s.bankrolls.set (s.names player) chips
          log := s.log ++
            [.updateChips (s.names player) chips] }
  else
    s

/- `persist_all_chips`. -/
def persistAllChips
    (s : GameSession) : GameSession :=
  s.players.foldl persistPlayerChips s

------------------------------------------------------------
-- Blinds and the Start of a Hand
------------------------------------------------------------

/- `mark_all_in_if_needed`. -/
def markAllInIfNeeded
    (s : GameSession)
    (player : PlayerId) : GameSession :=
  if s.chips.get player = 0 then
    { s with allInPlayers := insert player s.allInPlayers }
  else
    s

/- The bookkeeping of `contribute` for `actual` chips. -/
def moveToPot
    (s : GameSession)
    (player : PlayerId)
    (actual : UInt32) : GameSession :=
  { s with
    chips :=
      s.chips.set player (s.chips.get player - actual)
    roundBets :=
      s.roundBets.set player
        (s.roundBets.get player + actual)
    totalContributed :=
      s.totalContributed.set player
        (s.totalContributed.get player + actual)
    pot := s.pot + actual }

/- The chips that `contribute` really moves. -/
def actualAmount
    (s : GameSession)
    (player : PlayerId)
    (amount : UInt32) : UInt32 :=
  min amount (s.chips.get player)

/- `contribute`. -/
def contribute
    (s : GameSession)
    (player : PlayerId)
    (amount : UInt32) : GameSession :=
  (s.moveToPot player (s.actualAmount player amount))
    |>.markAllInIfNeeded player

/- `post_blinds`. -/
def postBlinds
    (s : GameSession) : Except Exn GameSession := do
  let smallBlind ← s.playerAt s.sbIndex
  let bigBlind ← s.playerAt s.bbIndex
  let posted := (s.contribute smallBlind SMALL_BLIND).contribute
    bigBlind BIG_BLIND
  .ok { posted with
    currentBet := posted.roundBets.get bigBlind }

/- `begin_betting_round`. -/
def beginBettingRound
    (s : GameSession) : GameSession :=
  { s with playersActed := ∅ }

/- The stack a player brings to his first hand. -/
def bankrollOf
    (s : GameSession)
    (player : PlayerId) : UInt32 :=
  (s.bankrolls.find (s.names player)).getD STARTING_CHIPS

/- The body of the dealing loop of `start`. -/
def dealPlayer
    (s : GameSession)
    (player : PlayerId) : Except Exn GameSession := do
  let chips :=
    match s.chips.find player with
    | none => s.chips.set player (s.bankrollOf player)
    | some _ => s.chips
  let (hand, deck) ← require .deckEmpty (Deck.deal s.deck 2)
  .ok { s with
    chips := chips
    deck := deck
    hands := s.hands.set player hand
    roundBets := s.roundBets.set player 0
    totalContributed := s.totalContributed.set player 0 }

/- The table as `start` clears it for a new hand. -/
def clearTable
    (s : GameSession)
    (shuffle : Shuffle) : GameSession :=
  { s with
    deck := shuffle.cards
    communityCards := []
    foldedPlayers := ∅
    allInPlayers := ∅
    pot := 0
    currentBet := 0
    lastRaiseIncrement := BIG_BLIND
    totalContributed := .empty }

/- The table once `start` has opened the first round. -/
def openPreFlop
    (s : GameSession) : GameSession :=
  let s := s.beginBettingRound
  { s with
    currentPlayerIndex := s.firstToActPreflop
    phase := .preFlop }

/- `start`. -/
def start
    (s : GameSession)
    (shuffle : Shuffle) :
    Except Exn (GameSession × Pending) := do
  let s ← (s.clearTable shuffle).players.foldlM dealPlayer
    (s.clearTable shuffle)
  let s ← s.postBlinds
  let s ← s.openPreFlop.persistAllChips.broadcastState
  .ok (s, .askCurrentPlayer)

------------------------------------------------------------
-- Asking and Advancing
------------------------------------------------------------

/- The `YourTurn` that `ask_current_player` builds. -/
def yourTurn
    (s : GameSession)
    (current : PlayerId) : YourTurn :=
  let bet := s.roundBets.get current
  let toCall := s.currentBet - bet
  let minRaiseTotal := s.currentBet + s.lastRaiseIncrement
  let allInTotal := bet + s.chips.get current
  { availableActions :=
      [.fold] ++
      (if toCall = 0 then
        [.check]
      else if 0 < s.chips.get current then
        [.call]
      else
        []) ++
      (if toCall < s.chips.get current ∧
          minRaiseTotal ≤ allInTotal then
        [.raise]
      else
        [])
    minAmount := minRaiseTotal
    maxAmount := allInTotal
    toCall := toCall
    yourChips := s.chips.get current }

/- Close the round or ask whoever is on turn. -/
def closeRoundOrAsk
    (s : GameSession) :
    Except Exn (GameSession × Pending) := do
  if ← s.isRoundComplete then
    .ok (s, .nextPhase)
  else
    .ok (s, .askCurrentPlayer)

/- `ask_current_player`. -/
def askCurrentPlayer
    (s : GameSession) :
    Except Exn (GameSession × Pending) := do
  let current ← s.playerAt s.currentPlayerIndex
  if ¬ s.canPlayerAct current then
    s.advanceToNextPlayer.closeRoundOrAsk
  else
    .ok (s.send current (.yourTurn (s.yourTurn current)),
      .done)

/-
  The table once `next_phase` has dealt `dealt` and opened
  the betting round of phase `phase`.
-/
def openStreet
    (s : GameSession)
    (dealt rest : List Card)
    (phase : GamePhase) : GameSession :=
  let s := { s with
    deck := rest
    communityCards := s.communityCards ++ dealt
    phase := phase }
  { s with
    currentPlayerIndex := s.firstToActPostflop
    playersActed := ∅ }

/- One street of `next_phase`: deal `count` cards. -/
def dealStreet
    (s : GameSession)
    (count : Nat)
    (phase : GamePhase) :
    Except Exn (GameSession × Pending) := do
  let (dealt, rest) ←
    require .deckEmpty (Deck.deal s.deck count)
  let s ← (s.openStreet dealt rest phase).broadcastState
  .ok (s, .askCurrentPlayer)

/- The bets as `next_phase` clears them for a new street. -/
def clearBets
    (s : GameSession) : GameSession :=
  { s with
    currentBet := 0
    lastRaiseIncrement := BIG_BLIND
    roundBets := s.roundBets.mapValues fun _ => 0 }

/- `next_phase`. -/
def nextPhase
    (s : GameSession) :
    Except Exn (GameSession × Pending) :=
  if s.countActivePlayers = 1 then
    .ok (s, .handleSingleWinner)
  else
    match s.phase with
    | .preFlop => s.clearBets.dealStreet 3 .flop
    | .flop => s.clearBets.dealStreet 1 .turn
    | .turn => s.clearBets.dealStreet 1 .river
    | .river => .ok (s.clearBets, .doShowdown)
    | .showdown => .ok (s.clearBets, .done)

------------------------------------------------------------
-- Actions
------------------------------------------------------------

/- The `Raise` case of `apply_action`. -/
def applyRaise
    (s : GameSession)
    (current : PlayerId)
    (amount : Option UInt32) :
    Except ErrorCode GameSession :=
  let bet := s.roundBets.get current
  let minRaiseTotal := s.currentBet + s.lastRaiseIncrement
  let allInTotal := bet + s.chips.get current
  match amount with
  | none => .error .invalidRaise
  | some total =>
      if total ≤ s.currentBet then
        .error .invalidRaise
      else if total ≤ bet then
        .error .invalidRaise
      else if total < minRaiseTotal ∧ total < allInTotal then
        .error .invalidRaise
      else if s.chips.get current < total - bet then
        .error .notEnoughChips
      else
        let previousBet := s.currentBet
        let s := s.contribute current (total - bet)
        if s.currentBet < s.roundBets.get current then
          .ok { s with
            lastRaiseIncrement :=
              s.roundBets.get current - previousBet
            currentBet := s.roundBets.get current }
        else
          .ok s

/-
  The `switch` of `apply_action`: what the action does, or
  the code of the error it is answered with.
-/
def performAction
    (s : GameSession)
    (current : PlayerId)
    (action : Action)
    (amount : Option UInt32) :
    Except ErrorCode GameSession :=
  let bet := s.roundBets.get current
  match action with
  | .fold =>
      .ok { s with
        foldedPlayers := insert current s.foldedPlayers }
  | .check =>
      if s.currentBet ≠ bet then
        .error .cannotCheck
      else
        .ok s
  | .call =>
      let toCall := s.currentBet - bet
      if 0 < toCall then
        .ok (s.contribute current toCall)
      else
        .ok s
  | .raise => s.applyRaise current amount

/- `record_player_action`. -/
def recordPlayerAction
    (s : GameSession)
    (player : PlayerId)
    (action : Action) : GameSession :=
  { s with
    playersActed :=
      insert player
        (if action = .raise then ∅ else s.playersActed) }

/- The part of `apply_action` after its `switch`. -/
def afterAction
    (s : GameSession)
    (current : PlayerId)
    (action : Action)
    (amount : Option UInt32) :
    Except Exn (GameSession × Pending) :=
  let s := (s.recordPlayerAction current action)
    |>.broadcastActionEvent (s.names current) action amount
  if s.countActivePlayers = 1 then
    .ok (s, .handleSingleWinner)
  else
    s.advanceToNextPlayer.closeRoundOrAsk

/- `apply_action`. -/
def applyAction
    (s : GameSession)
    (connection : ConnId)
    (action : Action)
    (amount : Option UInt32) :
    Except Exn (GameSession × Pending) :=
  match s.getPlayer connection with
  | none => .ok (s, .done)
  | some current => do
      let onTurn ← s.playerAt s.currentPlayerIndex
      if onTurn ≠ current then
        .ok (s.sendError current .notYourTurn, .done)
      else
        match s.performAction current action amount with
        | .error code =>
            .ok (s.sendError current code, .done)
        | .ok s => s.afterAction current action amount

------------------------------------------------------------
-- Settlement
------------------------------------------------------------

/- What a player shows: his hole cards and the board. -/
def showdownValue
    (s : GameSession)
    (player : PlayerId) : Except Exn HandValue := do
  let hand ← require .outOfRange (s.hands.find player)
  .ok (evaluateBest (hand ++ s.communityCards))

/- The loop of `find_winners_among`. -/
def winnersLoop
    (s : GameSession) :
    List PlayerId → HandValue → List PlayerId →
      Except Exn (List PlayerId)
| [], _, winners => .ok winners
| player :: rest, best, winners => do
    let value ← s.showdownValue player
    if winners = [] ∨ best < value then
      s.winnersLoop rest value [player]
    else if value = best then
      s.winnersLoop rest best (winners ++ [player])
    else
      s.winnersLoop rest best winners

/- `find_winners_among`. -/
def findWinnersAmong
    (s : GameSession)
    (contenders : List PlayerId) :
    Except Exn (List PlayerId) :=
  match contenders with
  | [] => .ok []
  | [winner] => .ok [winner]
  | _ => s.winnersLoop contenders {} []

/- The locals of `award_all_pots` around its loop. -/
structure Award where
  session : GameSession
  winnerNames : List String := []
  winnerHandLabels : List String := []
  totalAwarded : UInt32 := 0

/- The label of a winner's hand, empty before the flop. -/
def winnerHandLabel
    (s : GameSession)
    (winner : PlayerId) : Except Exn String := do
  if 3 ≤ s.communityCards.length then
    let value ← s.showdownValue winner
    .ok (handCategoryLabel value.category)
  else
    .ok ""

/- Add chips to a stack. -/
def credit
    (s : GameSession)
    (player : PlayerId)
    (amount : UInt32) : GameSession :=
  { s with
    chips :=
      s.chips.set player (s.chips.get player + amount) }

/- The body of the loop over the winners of one pot. -/
def payWinner
    (share : UInt32)
    (award : Award)
    (winner : PlayerId) : Except Exn Award := do
  let session := award.session.credit winner share
  let name := session.names winner
  if name ∈ award.winnerNames then
    .ok { award with session := session }
  else
    let label ← session.winnerHandLabel winner
    .ok { award with
      session := session
      winnerNames := award.winnerNames ++ [name]
      winnerHandLabels := award.winnerHandLabels ++ [label] }

/- The body of the loop over the side pots. -/
def payPot
    (award : Award)
    (sidePot : SidePot) : Except Exn Award := do
  let contenders ← sidePot.eligiblePlayerIndices.mapM
    award.session.playerAt
  let winners ← award.session.findWinnersAmong contenders
  match winners with
  | [] => .ok award
  | front :: _ =>
      if sidePot.amount = 0 then
        .ok award
      else
        let count := UInt32.ofNat winners.length
        let share := sidePot.amount / count
        let remainder := sidePot.amount % count
        let award ← winners.foldlM (payWinner share) award
        .ok { award with
          session :=
            if 0 < remainder then
              award.session.credit front remainder
            else
              award.session
          totalAwarded := award.totalAwarded + sidePot.amount }

/- What `award_all_pots` hands to `compute_side_pots`. -/
def potPlayerStates
    (s : GameSession) : List PotPlayerState :=
  s.players.map fun p =>
    { contributed := s.totalContributed.get p
      folded := decide (p ∈ s.foldedPlayers) }

/- How `award_all_pots` makes its payments known. -/
def announceAward
    (award : Award) : Except Exn GameSession :=
  if award.winnerNames ≠ [] then do
    let s ← award.session.persistAllChips.broadcastState
    .ok (s.broadcastHandResult award.winnerNames
      award.winnerHandLabels award.totalAwarded)
  else
    .ok award.session

/- `award_all_pots`. -/
def awardAllPots
    (s : GameSession) : Except Exn GameSession :=
  if s.pot = 0 then
    .ok s
  else do
    let award ← (computeSidePots s.potPlayerStates).foldlM
      payPot { session := s }
    let s ← announceAward award
    .ok { s with pot := 0, totalContributed := .empty }

/- `do_showdown`. -/
def doShowdown
    (s : GameSession) :
    Except Exn (GameSession × Pending) := do
  let s ← broadcastState { s with phase := .showdown }
  if s.countActivePlayers = 0 then
    .ok (s, .resume .tryStartNewHand)
  else if s.countActivePlayers = 1 then
    .ok (s, .handleSingleWinner)
  else
    .ok (s, .awardAllPots .tryStartNewHand)

/- `try_start_new_hand`, with `start_new_hand` in it. -/
def tryStartNewHand
    (s : GameSession) : GameSession × Pending :=
  if ¬ s.hasEnoughPlayers then
    (s, .done)
  else if s.countPlayersWithChips < 2 then
    (s, .done)
  else
    ({ s with
      dealerIndex := (s.dealerIndex + 1) % s.players.length },
      .start)

------------------------------------------------------------
-- Departures
------------------------------------------------------------

/- `erase_player_state`. -/
def erasePlayerState
    (s : GameSession)
    (player : PlayerId)
    (connection : ConnId) : GameSession :=
  let s := s.persistPlayerChips player
  { s with
    hands := s.hands.erase player
    chips := s.chips.erase player
    roundBets := s.roundBets.erase player
    totalContributed := s.totalContributed.erase player
    foldedPlayers := s.foldedPlayers.erase player
    allInPlayers := s.allInPlayers.erase player
    playersActed := s.playersActed.erase player
    connectionMap := s.connectionMap.erase connection }

/- How `fix_indices_after_removal` repairs one index. -/
def fixIndex
    (index removedIndex size : Nat) : Nat :=
  if size ≤ index then
    0
  else if removedIndex < index then
    index - 1
  else
    index

/- `fix_indices_after_removal`. -/
def fixIndicesAfterRemoval
    (s : GameSession)
    (removedIndex : Nat) : GameSession :=
  { s with
    dealerIndex :=
      fixIndex s.dealerIndex removedIndex s.players.length
    currentPlayerIndex :=
      fixIndex s.currentPlayerIndex removedIndex
        s.players.length }

/- `continue_after_player_left`. -/
def continueAfterPlayerLeft
    (s : GameSession)
    (wasCurrent : Bool) :
    Except Exn (GameSession × Pending) := do
  let complete ← s.isRoundComplete
  if wasCurrent || complete then
    if complete then
      .ok (s, .nextPhase)
    else
      .ok (s, .askCurrentPlayer)
  else
    let s ← s.broadcastState
    .ok (s, .done)

/- Erase a leaver: his state first, then his seat. -/
def eraseLeaver
    (s : GameSession)
    (leaver : Leaver) : GameSession :=
  let s := s.erasePlayerState leaver.player leaver.connection
  { s with
    players := s.players.eraseIdx leaver.removedIndex }

/- The part of `remove_player` after its award. -/
def finishRemoval
    (s : GameSession)
    (leaver : Leaver) :
    Except Exn (GameSession × Pending) :=
  let s := s.eraseLeaver leaver
  if s.players = [] then
    .ok (s, .done)
  else
    let s := s.fixIndicesAfterRemoval leaver.removedIndex
    if ¬ s.hasEnoughPlayers then
      .ok (s, .done)
    else if s.countActivePlayers = 1 then
      .ok (s, .resume .tryStartNewHand)
    else
      s.continueAfterPlayerLeft leaver.wasCurrent

/- The auto-fold of `remove_player`. -/
def foldLeaver
    (s : GameSession)
    (player : PlayerId) : GameSession :=
  { s with
    foldedPlayers := insert player s.foldedPlayers }

/- Fold a leaver; award the pot if one player remains. -/
def beginRemoval
    (s : GameSession)
    (leaver : Leaver) : GameSession × Pending :=
  let s := s.foldLeaver leaver.player
  if s.countActivePlayers = 1 then
    (s, .awardAllPots (.finishRemoval leaver))
  else
    (s, .resume (.finishRemoval leaver))

/- `remove_player`, up to its call of `award_all_pots`. -/
def removePlayer
    (s : GameSession)
    (connection : ConnId) :
    Except Exn (GameSession × Pending) :=
  match s.getPlayer connection with
  | none => .ok (s, .done)
  | some player =>
      match s.players.idxOf? player with
      | none => .ok (s, .done)
      | some removedIndex => do
          let current ← s.playerAt s.currentPlayerIndex
          .ok (s.beginRemoval
            { player := player
              connection := connection
              removedIndex := removedIndex
              wasCurrent := decide (current = player) })

end GameSession

end Server

end Poker

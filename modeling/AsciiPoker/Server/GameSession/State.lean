import AsciiPoker.Library.KeyMap
import AsciiPoker.Common.Protocol
import Mathlib.Data.Finset.Basic

/-
  The data of a game session (`game_session.h`).

  A player and a connection are pointers; `names` is what
  `get_name` answers for a player.  What the session sends
  and what it writes to the user repository is appended to
  `log`.  `room_id_` is only logged and left out.

  Main declarations:
    * `PlayerId`, `ConnId`, `Effect`, `Exn`
    * `GameSession`
    * `GameSession.send`, `GameSession.sendAll`
-/

------------------------------------------------------------
-- The Session
------------------------------------------------------------

namespace Poker

namespace Server

open Protocol

/- An `IPlayer*`. -/
abbrev PlayerId := Nat

/- An `IConnection*`. -/
abbrev ConnId := Nat

/- What a session does to the outside world. -/
inductive Effect
  | send (player : PlayerId) (msg : ServerMessage)
  | updateChips (username : String) (chips : UInt32)
  deriving DecidableEq, Repr

/-
  How a call can fail to return: `deckEmpty` is the
  `std::out_of_range` of `Deck::deal` and `outOfRange` that
  of `unordered_map::at` and of `std::stoi`, the next three
  are exceptions of the JSON library and of the standard
  library, `badIndex` stands for going beyond the end of a
  vector or through a null pointer, and `notEnabled` refuses
  an event that cannot happen in the present state.
-/
inductive Exn
  | deckEmpty
  | outOfRange
  | jsonException
  | invalidArgument
  | runtimeError
  | databaseError
  | badIndex
  | notEnabled
  deriving DecidableEq, Repr

/- Fail with `exn` when there is no value. -/
def require
    {α : Type}
    (exn : Exn) :
    Option α → Except Exn α
| some a => .ok a
| none => .error exn

@[simp] theorem require_eq_ok
    {α : Type}
    {exn : Exn}
    {o : Option α}
    {a : α} :
    require exn o = .ok a ↔ o = some a := by
  cases o with
  | none => simp [require]
  | some b => simp [require]

structure GameSession where
  hasRepository : Bool
  bankrolls : KeyMap String UInt32
  names : PlayerId → String
  players : List PlayerId
  connectionMap : KeyMap ConnId PlayerId
  hands : KeyMap PlayerId (List Card) := .empty
  foldedPlayers : Finset PlayerId := ∅
  allInPlayers : Finset PlayerId := ∅
  playersActed : Finset PlayerId := ∅
  deck : List Card := Deck.fresh
  communityCards : List Card := []
  phase : GamePhase := .preFlop
  dealerIndex : Nat := 0
  currentPlayerIndex : Nat := 0
  pot : UInt32 := 0
  currentBet : UInt32 := 0
  lastRaiseIncrement : UInt32 := 0
  chips : KeyMap PlayerId UInt32 := .empty
  roundBets : KeyMap PlayerId UInt32 := .empty
  totalContributed : KeyMap PlayerId UInt32 := .empty
  log : List Effect := []

------------------------------------------------------------
-- Sending
------------------------------------------------------------

namespace GameSession

/- `player->send_message(msg)`. -/
def send
    (s : GameSession)
    (player : PlayerId)
    (msg : ServerMessage) : GameSession :=
  { s with log := s.log ++ [.send player msg] }

/- Send every seated player his message, in seat order. -/
def sendAll
    (s : GameSession)
    (msg : PlayerId → ServerMessage) : GameSession :=
  { s with
    log := s.log ++
      s.players.map fun p => .send p (msg p) }

/- Answer a player with an error. -/
def sendError
    (s : GameSession)
    (player : PlayerId)
    (code : ErrorCode) : GameSession :=
  s.send player (.error (makeError code ""))

/- `players_[index]`. -/
def playerAt
    (s : GameSession)
    (index : Nat) : Except Exn PlayerId :=
  require .badIndex s.players[index]?

/- `get_player`. -/
def getPlayer
    (s : GameSession)
    (connection : ConnId) : Option PlayerId :=
  s.connectionMap.find connection

/- `has_enough_players`. -/
def hasEnoughPlayers
    (s : GameSession) : Prop :=
  2 ≤ s.players.length

instance (s : GameSession) : Decidable s.hasEnoughPlayers :=
  inferInstanceAs (Decidable (2 ≤ s.players.length))

/- `can_player_act`. -/
def canPlayerAct
    (s : GameSession)
    (player : PlayerId) : Prop :=
  player ∉ s.foldedPlayers ∧ player ∉ s.allInPlayers

instance
    (s : GameSession)
    (player : PlayerId) :
    Decidable (s.canPlayerAct player) :=
  inferInstanceAs (Decidable (_ ∧ _))

/- `count_active_players`. -/
def countActivePlayers
    (s : GameSession) : Nat :=
  s.players.countP fun p => p ∉ s.foldedPlayers

/- `count_players_with_chips`. -/
def countPlayersWithChips
    (s : GameSession) : Nat :=
  s.players.countP fun p => 0 < s.chips.get p

/- `sb_index`. -/
def sbIndex
    (s : GameSession) : Nat :=
  if s.players.length = 2 then
    s.dealerIndex
  else
    (s.dealerIndex + 1) % s.players.length

/- `bb_index`. -/
def bbIndex
    (s : GameSession) : Nat :=
  if s.players.length = 2 then
    (s.dealerIndex + 1) % s.players.length
  else
    (s.dealerIndex + 2) % s.players.length

/- `first_to_act_preflop`. -/
def firstToActPreflop
    (s : GameSession) : Nat :=
  if s.players.length = 2 then
    s.dealerIndex
  else
    (s.bbIndex + 1) % s.players.length

/- `can_player_act(players_[index])`. -/
def canActAt
    (s : GameSession)
    (index : Nat) : Prop :=
  ∃ p ∈ s.players[index]?, s.canPlayerAct p

instance
    (s : GameSession)
    (index : Nat) :
    Decidable (s.canActAt index) :=
  match h : s.players[index]? with
  | none => .isFalse (by simp [canActAt, h])
  | some p =>
      decidable_of_iff (s.canPlayerAct p)
        (by simp [canActAt, h])

/-
  The `do … while` loop of `first_to_act_postflop`, which
  visits every seat at most once before it is back at
  `first`.
-/
def postflopLoop
    (s : GameSession)
    (first : Nat) : Nat → Nat → Nat
| 0, _ => s.dealerIndex
| rounds + 1, index =>
    if s.canActAt index then
      index
    else
      let next := (index + 1) % s.players.length
      if next ≠ first then
        s.postflopLoop first rounds next
      else
        s.dealerIndex

/- `first_to_act_postflop`. -/
def firstToActPostflop
    (s : GameSession) : Nat :=
  let first := (s.dealerIndex + 1) % s.players.length
  s.postflopLoop first s.players.length first

/-
  The `while` loop of `find_next_active_player`, which ends
  at the latest when it is back at the current seat.
-/
def nextActiveLoop
    (s : GameSession) : Nat → Nat → Nat
| 0, index => index
| rounds + 1, index =>
    if ¬ s.canActAt index ∧ index ≠ s.currentPlayerIndex
    then
      s.nextActiveLoop rounds
        ((index + 1) % s.players.length)
    else
      index

/- `find_next_active_player`. -/
def findNextActivePlayer
    (s : GameSession) : Nat :=
  if s.players = [] then
    0
  else
    s.nextActiveLoop s.players.length
      ((s.currentPlayerIndex + 1) % s.players.length)

/- `advance_to_next_player`. -/
def advanceToNextPlayer
    (s : GameSession) : GameSession :=
  { s with currentPlayerIndex := s.findNextActivePlayer }

/- The loop of `is_round_complete` over the players left. -/
def roundCompleteLoop
    (s : GameSession) :
    List PlayerId → Except Exn Bool
| [] => .ok true
| p :: ps =>
    if p ∈ s.foldedPlayers then
      s.roundCompleteLoop ps
    else
      match require .outOfRange (s.roundBets.find p) with
      | .error exn => .error exn
      | .ok playerBet =>
          if playerBet < s.currentBet ∧
              p ∉ s.allInPlayers then
            .ok false
          else if s.canPlayerAct p ∧
              p ∉ s.playersActed then
            .ok false
          else
            s.roundCompleteLoop ps

/- `is_round_complete`. -/
def isRoundComplete
    (s : GameSession) : Except Exn Bool :=
  if s.countActivePlayers ≤ 1 then
    .ok true
  else
    s.roundCompleteLoop s.players

end GameSession

end Server

end Poker

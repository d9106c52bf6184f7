import AsciiPoker.Common.Protocol

/-
  What a client shows (`client_view_state.h`,
  `client_view_state.cpp`) and how `PokerUI` keeps the turn
  (`poker_ui.h`, `poker_ui.cpp`).

  The texts for the user, his log and the widgets of the
  screen are left out: nothing below reads them.

  Main declarations:
    * `ClientViewState`, `ClientViewState.applyMessage`,
      `ClientViewState.setConnection`
    * `PokerUI`, `PokerUI.addServerMessage`,
      `PokerUI.sendAction`
-/

------------------------------------------------------------
-- The View
------------------------------------------------------------

namespace Poker

namespace Client

open Protocol

inductive UiScreen
  | login
  | lobby
  | waitingRoom
  | inGame
  | disconnected
  deriving DecidableEq, Repr

inductive ConnectionStatus
  | connecting
  | connected
  | failed
  | disconnected
  deriving DecidableEq, Repr

structure ClientViewState where
  screen : UiScreen := .login
  connection : ConnectionStatus := .connecting
  playerName : String := ""
  chips : UInt32 := 0
  rooms : List RoomInfo := []
  roomId : Option UInt64 := none
  playerNames : List String := []
  roomHostName : String := ""
  roomMaxPlayers : UInt8 := 0
  isRoomHost : Bool := false
  gameState : Option GameStateUpdate := none
  yourTurn : Option YourTurn := none
  lastHandResult : Option HandResult := none
  deriving DecidableEq, Repr

namespace ClientViewState

/- `reset_play_session`. -/
def resetPlaySession
    (state : ClientViewState) : ClientViewState :=
  { state with
    roomId := none
    playerNames := []
    roomHostName := ""
    roomMaxPlayers := 0
    isRoomHost := false
    gameState := none
    yourTurn := none
    lastHandResult := none }

/- `set_connection`. -/
def setConnection
    (state : ClientViewState)
    (status : ConnectionStatus) : ClientViewState :=
  let state := { state with connection := status }
  match status with
  | .connected => state
  | .connecting => state
  | .failed => { state with screen := .login }
  | .disconnected =>
      { state with
        screen := .disconnected
        yourTurn := none }.resetPlaySession

/- `has_action`. -/
def hasAction
    (state : ClientViewState)
    (action : Action) : Prop :=
  ∃ turn ∈ state.yourTurn, action ∈ turn.availableActions

instance
    (state : ClientViewState)
    (action : Action) :
    Decidable (state.hasAction action) :=
  match h : state.yourTurn with
  | none => .isFalse (by simp [hasAction, h])
  | some turn =>
      decidable_of_iff (action ∈ turn.availableActions)
        (by simp [hasAction, h])

/- The `JoinedRoom` branch of `apply_message`. -/
def applyJoinedRoom
    (state : ClientViewState)
    (msg : JoinedRoom) : ClientViewState :=
  let state := { state with
    roomId := some msg.roomId
    playerNames := msg.playerNames
    roomHostName := msg.hostName
    roomMaxPlayers := msg.maxPlayers
    isRoomHost := decide
      (state.playerName ≠ "" ∧
        state.playerName = msg.hostName) }
  if msg.inGame ∧ state.screen = .inGame then
    state
  else
    { state with
      gameState := none
      yourTurn := none
      lastHandResult := none
      screen := .waitingRoom }

/- The `GameStateUpdate` branch of `apply_message`. -/
def applyGameStateUpdate
    (state : ClientViewState)
    (msg : GameStateUpdate) : ClientViewState :=
  let own := msg.players.find? fun player =>
    player.name = state.playerName
  { state with
    lastHandResult := none
    gameState := some msg
    screen := .inGame
    chips := (own.map PlayerState.chips).getD state.chips }

/- `apply_message`. -/
def applyMessage
    (state : ClientViewState) :
    ServerMessage → ClientViewState
| .welcome msg =>
    { state with
      playerName := msg.playerName
      chips := msg.chips
      screen := .lobby }
| .roomList msg => { state with rooms := msg.rooms }
| .joinedRoom msg => state.applyJoinedRoom msg
| .gameStateUpdate msg => state.applyGameStateUpdate msg
| .yourTurn msg =>
    { state with
      yourTurn := some msg
      chips := msg.yourChips
      screen := .inGame }
| .handResult msg => { state with lastHandResult := some msg }
| .actionEvent _ => state
| .leftRoom msg =>
    { state.resetPlaySession with
      screen := .lobby
      chips :=
        if msg.hasYourChips then
          msg.yourChips
        else
          state.chips }
| .error _ => state

end ClientViewState

------------------------------------------------------------
-- The Turn
------------------------------------------------------------

structure PokerUI where
  state : ClientViewState := {}
  actionPending : Bool := false
  savedYourTurn : Option YourTurn := none
  deriving DecidableEq, Repr

namespace PokerUI

/- No action is waited for any more. -/
def forgetAction
    (ui : PokerUI) : PokerUI :=
  { ui with actionPending := false, savedYourTurn := none }

/- The turn as it is shown. -/
def withTurn
    (ui : PokerUI)
    (turn : Option YourTurn) : PokerUI :=
  { ui with state := { ui.state with yourTurn := turn } }

/-
  `add_server_message`.  A `Welcome` also has the client ask
  for the room list, which is left out.
-/
def addServerMessage
    (ui : PokerUI)
    (msg : ServerMessage) : PokerUI :=
  let ui := { ui with state := ui.state.applyMessage msg }
  match msg with
  | .error _ =>
      let ui :=
        if ui.actionPending ∧ ui.savedYourTurn.isSome then
          ui.withTurn ui.savedYourTurn
        else
          ui
      ui.forgetAction
  | .gameStateUpdate _ =>
      if ui.actionPending then
        (ui.withTurn none).forgetAction
      else
        ui
  | .yourTurn _ => ui.forgetAction
  | .leftRoom _ => ui.forgetAction
  | .welcome _ => ui
  | .roomList _ => ui
  | .joinedRoom _ => ui
  | .handResult _ => ui
  | .actionEvent _ => ui

/- `send_action`, if it does send the action. -/
def sendAction
    (ui : PokerUI)
    (action : Action) : Option PokerUI :=
  if ui.state.hasAction action then
    some { ui.withTurn none with
      actionPending := true
      savedYourTurn := ui.state.yourTurn }
  else
    none

/- `on_connection_changed`. -/
def onConnectionChanged
    (ui : PokerUI)
    (status : ConnectionStatus) : PokerUI :=
  { ui with state := ui.state.setConnection status }

------------------------------------------------------------
-- Holding the Turn
------------------------------------------------------------

/- Whether the user is asked to act. -/
def hasTurn
    (ui : PokerUI) : Bool :=
  ui.state.yourTurn.isSome

end PokerUI

/-
  A message that can give the turn to a client: a question,
  or an error, which gives a turn back.
-/
def bearsTurn : ServerMessage → Bool
| .yourTurn _ => true
| .error _ => true
| _ => false

namespace PokerUI

variable {ui after : PokerUI}
variable {msg : ServerMessage}
variable {action : Action}

@[simp] theorem hasTurn_forgetAction
    (ui : PokerUI) :
    ui.forgetAction.hasTurn = ui.hasTurn := rfl

@[simp] theorem hasTurn_withTurn
    (ui : PokerUI)
    (turn : Option YourTurn) :
    (ui.withTurn turn).hasTurn = turn.isSome := rfl

/- A room that is not in a game has no turn for anybody. -/
theorem hasTurn_applyJoinedRoom
    {joined : JoinedRoom}
    (hTurn : (ui.addServerMessage
      (.joinedRoom joined)).hasTurn = true) :
    ui.hasTurn = true ∧ joined.inGame = true := by
  change (ui.state.applyJoinedRoom joined).yourTurn.isSome =
    true at hTurn
  unfold ClientViewState.applyJoinedRoom at hTurn
  dsimp only at hTurn
  split at hTurn
  · rename_i hGame
    exact ⟨hTurn, hGame.1⟩
  · cases hTurn

/- Only what bears a turn gives one. -/
theorem hasTurn_addServerMessage
    (hTurn : (ui.addServerMessage msg).hasTurn = true) :
    ui.hasTurn = true ∨ bearsTurn msg = true := by
  cases msg with
  | error msg => exact Or.inr rfl
  | yourTurn msg => exact Or.inr rfl
  | joinedRoom msg =>
      exact Or.inl (hasTurn_applyJoinedRoom hTurn).1
  | gameStateUpdate msg =>
      unfold addServerMessage at hTurn
      dsimp only at hTurn
      split at hTurn
      · cases hTurn
      · exact Or.inl hTurn
  | leftRoom msg => cases hTurn
  | welcome msg => exact Or.inl hTurn
  | roomList msg => exact Or.inl hTurn
  | handResult msg => exact Or.inl hTurn
  | actionEvent msg => exact Or.inl hTurn

/- Whoever acts had the turn and gives it away. -/
theorem hasTurn_of_sendAction
    (hSent : ui.sendAction action = some after) :
    ui.hasTurn = true ∧ after.hasTurn = false := by
  unfold sendAction at hSent
  split at hSent
  · rename_i hAction
    cases hSent
    rcases hAction with ⟨turn, hTurn, _⟩
    refine ⟨?_, rfl⟩
    unfold hasTurn
    rw [Option.mem_def.mp hTurn]
    rfl
  · cases hSent

end PokerUI

end Client

end Poker

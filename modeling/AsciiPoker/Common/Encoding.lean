import AsciiPoker.Common.Json
import AsciiPoker.Common.Protocol

/-
  How messages are written as JSON (`protocol.h`,
  `protocol.cpp`).

  Main declarations:
    * `Card.toJson`, `Action.toJson`, `GamePhase.toJson`
    * `ClientMessage.toJson`
    * `ServerMessage.toJson`
-/

------------------------------------------------------------
-- Values
------------------------------------------------------------

namespace Poker

namespace Json

/- The conversions of the library. -/
def ofUInt8
    (value : UInt8) : Json :=
  .unsigned value.toUInt64

/- The library keeps no width. -/
def ofUInt32
    (value : UInt32) : Json :=
  .unsigned value.toUInt64

/- Nor does it with a sign. -/
def ofInt32
    (value : Int32) : Json :=
  .integer value.toInt

/- A `std::vector` of messages. -/
def ofList
    {α : Type}
    (toJson : α → Json)
    (values : List α) : Json :=
  .array (values.map toJson)

end Json

open Json

/- `to_json` of a card. -/
def Card.toJson
    (card : Card) : Json :=
  .string card.toString

namespace Protocol

/- `NLOHMANN_JSON_SERIALIZE_ENUM`. -/
def Action.toJson : Action → Json
| .fold => .string "fold"
| .check => .string "check"
| .call => .string "call"
| .raise => .string "raise"

/- `NLOHMANN_JSON_SERIALIZE_ENUM`. -/
def GamePhase.toJson : GamePhase → Json
| .preFlop => .string "preflop"
| .flop => .string "flop"
| .turn => .string "turn"
| .river => .string "river"
| .showdown => .string "showdown"

/- What `j["amount"]` is set to. -/
def amountToJson : Option UInt32 → Json
| some amount => ofUInt32 amount
| none => .null

------------------------------------------------------------
-- Client Messages
------------------------------------------------------------

/- The password is sent as it is. -/
def Login.toJson
    (msg : Login) : Json :=
  .object
    [("username", .string msg.username),
      ("password", .string msg.password)]

/- The keys are those of the structure. -/
def CreateRoom.toJson
    (msg : CreateRoom) : Json :=
  .object
    [("room_name", .string msg.roomName),
      ("max_players", ofUInt8 msg.maxPlayers)]

/- A room is asked for by its id. -/
def JoinRoom.toJson
    (msg : JoinRoom) : Json :=
  .object [("room_id", .unsigned msg.roomId)]

/- An amount is written even when there is none. -/
def PlayerAction.toJson
    (msg : PlayerAction) : Json :=
  .object
    [("action", msg.action.toJson),
      ("amount", amountToJson msg.amount)]

namespace ClientMessage

/- The tag of `to_json`. -/
def type : ClientMessage → String
| .login _ => "login"
| .createRoom _ => "create_room"
| .joinRoom _ => "join_room"
| .leaveRoom => "leave_room"
| .listRooms => "list_rooms"
| .startGame => "start_game"
| .playerAction _ => "player_action"

/- The message itself; three of them have no members. -/
def data : ClientMessage → Json
| .login msg => msg.toJson
| .createRoom msg => msg.toJson
| .joinRoom msg => msg.toJson
| .leaveRoom => .object []
| .listRooms => .object []
| .startGame => .object []
| .playerAction msg => msg.toJson

/- `to_json`. -/
def toJson
    (msg : ClientMessage) : Json :=
  .object [("type", .string msg.type), ("data", msg.data)]

end ClientMessage

------------------------------------------------------------
-- Server Messages
------------------------------------------------------------

/- The chips are those of the account. -/
def Welcome.toJson
    (msg : Welcome) : Json :=
  .object
    [("player_name", .string msg.playerName),
      ("chips", ofUInt32 msg.chips),
      ("is_new_account", .boolean msg.isNewAccount)]

/- An element of the list below. -/
def RoomInfo.toJson
    (msg : RoomInfo) : Json :=
  .object
    [("room_id", .unsigned msg.roomId),
      ("room_name", .string msg.roomName),
      ("current_players", ofUInt8 msg.currentPlayers),
      ("max_players", ofUInt8 msg.maxPlayers),
      ("in_game", .boolean msg.inGame)]

/- The rooms in the order of the lobby. -/
def RoomList.toJson
    (msg : RoomList) : Json :=
  .object [("rooms", ofList RoomInfo.toJson msg.rooms)]

/- The names in the order of the seats. -/
def JoinedRoom.toJson
    (msg : JoinedRoom) : Json :=
  .object
    [("room_id", .unsigned msg.roomId),
      ("player_names", ofList .string msg.playerNames),
      ("host_name", .string msg.hostName),
      ("max_players", ofUInt8 msg.maxPlayers),
      ("in_game", .boolean msg.inGame)]

/- An element of the table below. -/
def PlayerState.toJson
    (msg : PlayerState) : Json :=
  .object
    [("name", .string msg.name),
      ("chips", ofUInt32 msg.chips),
      ("round_bet", ofUInt32 msg.roundBet),
      ("folded", .boolean msg.folded),
      ("all_in", .boolean msg.allIn),
      ("is_dealer", .boolean msg.isDealer),
      ("is_small_blind", .boolean msg.isSmallBlind),
      ("is_big_blind", .boolean msg.isBigBlind),
      ("hole_cards", ofList Card.toJson msg.holeCards)]

/- The cards of the board and of the receiver. -/
def GameStateUpdate.toJson
    (msg : GameStateUpdate) : Json :=
  .object
    [("general_cards", ofList Card.toJson msg.generalCards),
      ("your_cards", ofList Card.toJson msg.yourCards),
      ("phase", msg.phase.toJson),
      ("active_player_name", .string msg.activePlayerName),
      ("total_pot", ofUInt32 msg.totalPot),
      ("current_bet", ofUInt32 msg.currentBet),
      ("players", ofList PlayerState.toJson msg.players)]

/- The actions by their words. -/
def YourTurn.toJson
    (msg : YourTurn) : Json :=
  .object
    [("available_actions",
        ofList Action.toJson msg.availableActions),
      ("min_amount", ofUInt32 msg.minAmount),
      ("max_amount", ofUInt32 msg.maxAmount),
      ("to_call", ofUInt32 msg.toCall),
      ("your_chips", ofUInt32 msg.yourChips)]

/- The amount as in `PlayerAction`. -/
def ActionEvent.toJson
    (msg : ActionEvent) : Json :=
  .object
    [("player_name", .string msg.playerName),
      ("action", msg.action.toJson),
      ("amount", amountToJson msg.amount)]

/- The code by its number. -/
def Error.toJson
    (msg : Error) : Json :=
  .object
    [("code", ofInt32 msg.code),
      ("description", .string msg.description)]

/- Whether there are chips is said apart. -/
def LeftRoom.toJson
    (msg : LeftRoom) : Json :=
  .object
    [("room_id", .unsigned msg.roomId),
      ("your_chips", ofUInt32 msg.yourChips),
      ("has_your_chips", .boolean msg.hasYourChips)]

/- Winners and labels in the same order. -/
def HandResult.toJson
    (msg : HandResult) : Json :=
  .object
    [("winner_names", ofList .string msg.winnerNames),
      ("pot_amount", ofUInt32 msg.potAmount),
      ("winner_hand_labels",
        ofList .string msg.winnerHandLabels)]

namespace ServerMessage

/- The tag of `to_json`. -/
def type : ServerMessage → String
| .welcome _ => "welcome"
| .roomList _ => "room_list"
| .joinedRoom _ => "joined_room"
| .gameStateUpdate _ => "game_state_update"
| .yourTurn _ => "your_turn"
| .error _ => "error"
| .leftRoom _ => "left_room"
| .handResult _ => "hand_result"
| .actionEvent _ => "action_event"

/- The message itself. -/
def data : ServerMessage → Json
| .welcome msg => msg.toJson
| .roomList msg => msg.toJson
| .joinedRoom msg => msg.toJson
| .gameStateUpdate msg => msg.toJson
| .yourTurn msg => msg.toJson
| .error msg => msg.toJson
| .leftRoom msg => msg.toJson
| .handResult msg => msg.toJson
| .actionEvent msg => msg.toJson

/- `to_json`. -/
def toJson
    (msg : ServerMessage) : Json :=
  .object [("type", .string msg.type), ("data", msg.data)]

end ServerMessage

end Protocol

end Poker

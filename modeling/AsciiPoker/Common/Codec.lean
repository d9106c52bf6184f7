import AsciiPoker.Common.Json
import AsciiPoker.Common.Protocol

/-
  How client messages are read from JSON (`protocol.cpp`).

  Main declarations:
    * `Login.fromJson`, `CreateRoom.fromJson`,
      `JoinRoom.fromJson`, `PlayerAction.fromJson`
    * `ClientMessage.fromJson`
-/

namespace Poker

namespace Protocol

open Poker.Json

------------------------------------------------------------
-- Members
------------------------------------------------------------

namespace Action

/-
  `NLOHMANN_JSON_SERIALIZE_ENUM`: what is none of the listed
  strings is read as the first entry.
-/
def fromJson : Json → Action
| .string "fold" => .fold
| .string "check" => .check
| .string "call" => .call
| .string "raise" => .raise
| _ => .fold

end Action

namespace Login

/- `from_json` of each message. -/
def fromJson
    (j : Json) : Except String Login := do
  let username ← (← j.atKey "username").getString
  let password ← (← j.atKey "password").getString
  .ok ⟨username, password⟩

end Login

namespace CreateRoom

/- The seats are cut to eight bits. -/
def fromJson
    (j : Json) : Except String CreateRoom := do
  let roomName ← (← j.atKey "room_name").getString
  let maxPlayers ← (← j.atKey "max_players").getUInt8
  .ok ⟨roomName, maxPlayers⟩

end CreateRoom

namespace JoinRoom

/- The id is cut to 64 bits. -/
def fromJson
    (j : Json) : Except String JoinRoom := do
  let roomId ← (← j.atKey "room_id").getUInt64
  .ok ⟨roomId⟩

end JoinRoom

namespace PlayerAction

/- An `amount` that is present and not null. -/
def amountFromJson
    (j : Json) : Except String (Option UInt32) :=
  match j.find? "amount" with
  | none => .ok none
  | some value =>
      if value.isNull then
        .ok none
      else
        value.getUInt32.map some

/- The amount may be null or not be there. -/
def fromJson
    (j : Json) : Except String PlayerAction := do
  let action ← j.atKey "action"
  let amount ← amountFromJson j
  .ok ⟨Action.fromJson action, amount⟩

end PlayerAction

------------------------------------------------------------
-- Client Messages
------------------------------------------------------------

namespace ClientMessage

/- The text of the `std::invalid_argument` of `from_json`. -/
def unknownType
    (type : String) : String :=
  "Unknown ClientMessage type: " ++ type

/- `from_json` once the type is read. -/
def fromTyped
    (type : String)
    (j : Json) : Except String ClientMessage :=
  match type with
  | "login" => do
      .ok (.login (← Login.fromJson (← j.atKey "data")))
  | "create_room" => do
      .ok (.createRoom
        (← CreateRoom.fromJson (← j.atKey "data")))
  | "join_room" => do
      .ok (.joinRoom (← JoinRoom.fromJson (← j.atKey "data")))
  | "leave_room" => do
      let _ ← j.atKey "data"
      .ok .leaveRoom
  | "list_rooms" => do
      let _ ← j.atKey "data"
      .ok .listRooms
  | "start_game" => do
      let _ ← j.atKey "data"
      .ok .startGame
  | "player_action" => do
      .ok (.playerAction
        (← PlayerAction.fromJson (← j.atKey "data")))
  | other => .error (unknownType other)

/- `from_json`. -/
def fromJson
    (j : Json) : Except String ClientMessage := do
  let type ← (← j.atKey "type").getString
  fromTyped type j

end ClientMessage

end Protocol

end Poker

import AsciiPoker.Common.Codec

/-
  How cards and server messages are read from JSON
  (`protocol.h`, `protocol.cpp`).

  Main declarations:
    * `Card.fromJson`
    * `RoomInfo.fromJson`, `PlayerState.fromJson`
    * `ServerMessage.fromJson`
-/

------------------------------------------------------------
-- Cards
------------------------------------------------------------

namespace Poker

namespace Card

/- The first `switch` of `from_json`. -/
def suitOfChar : Char → Except String Suit
| 'C' => .ok .clubs
| 'D' => .ok .diamonds
| 'H' => .ok .hearts
| 'S' => .ok .spades
| c => .error ("Unknown card suit: " ++ c.toString)

/- The rank that the rest of the string names. -/
def rankOfString : String → Except String Rank
| "10" => .ok .ten
| "2" => .ok .two
| "3" => .ok .three
| "4" => .ok .four
| "5" => .ok .five
| "6" => .ok .six
| "7" => .ok .seven
| "8" => .ok .eight
| "9" => .ok .nine
| "J" => .ok .jack
| "Q" => .ok .queen
| "K" => .ok .king
| "A" => .ok .ace
| other => .error ("Unknown card rank: " ++ other)

/- `from_json` once the string is read. -/
def ofString
    (str : String) : Except String Card :=
  if str.utf8ByteSize < 2 then
    .error ("Invalid card string length: " ++ str)
  else do
    let suit ← suitOfChar (str.toList.getLastD ' ')
    let rank ← rankOfString (String.ofList str.toList.dropLast)
    .ok ⟨suit, rank⟩

/- `from_json` of a card. -/
def fromJson
    (j : Json) : Except String Card := do
  let str ← j.getString
  ofString str

/- `from_json` of a vector of cards. -/
def listFromJson
    (j : Json) : Except String (List Card) :=
  j.items.mapM fromJson

end Card

namespace Protocol

open Poker.Json

------------------------------------------------------------
-- Members
------------------------------------------------------------

namespace GamePhase

/-
  `NLOHMANN_JSON_SERIALIZE_ENUM`: what is none of the listed
  strings is read as the first entry.
-/
def fromJson : Json → GamePhase
| .string "preflop" => .preFlop
| .string "flop" => .flop
| .string "turn" => .turn
| .string "river" => .river
| .string "showdown" => .showdown
| _ => .preFlop

end GamePhase

namespace RoomInfo

/- `from_json` of a room. -/
def fromJson
    (j : Json) : Except String RoomInfo := do
  let roomId ← (← j.atKey "room_id").getUInt64
  let roomName ← (← j.atKey "room_name").getString
  let currentPlayers ← (← j.atKey "current_players").getUInt8
  let maxPlayers ← (← j.atKey "max_players").getUInt8
  let inGame ← j.getOr "in_game" getBoolean false
  .ok ⟨roomId, roomName, currentPlayers, maxPlayers, inGame⟩

end RoomInfo

namespace PlayerState

/- `from_json` of a seat; most members have a default. -/
def fromJson
    (j : Json) : Except String PlayerState := do
  let name ← (← j.atKey "name").getString
  let chips ← (← j.atKey "chips").getUInt32
  let roundBet ← (← j.atKey "round_bet").getUInt32
  let folded ← (← j.atKey "folded").getBoolean
  let allIn ← (← j.atKey "all_in").getBoolean
  let isDealer ← j.getOr "is_dealer" getBoolean false
  let isSmallBlind ← j.getOr "is_small_blind" getBoolean false
  let isBigBlind ← j.getOr "is_big_blind" getBoolean false
  let holeCards ← j.getOr "hole_cards" Card.listFromJson []
  .ok ⟨name, chips, roundBet, folded, allIn, isDealer,
    isSmallBlind, isBigBlind, holeCards⟩

end PlayerState

------------------------------------------------------------
-- Messages
------------------------------------------------------------

namespace Welcome

/- `from_json` of each message. -/
def fromJson
    (j : Json) : Except String Welcome := do
  let playerName ← (← j.atKey "player_name").getString
  let chips ← j.getOr "chips" getUInt32 0
  let isNewAccount ← j.getOr "is_new_account" getBoolean false
  .ok ⟨playerName, chips, isNewAccount⟩

end Welcome

namespace RoomList

/- An array of rooms. -/
def fromJson
    (j : Json) : Except String RoomList := do
  let rooms ← (← j.atKey "rooms").getList RoomInfo.fromJson
  .ok ⟨rooms⟩

end RoomList

namespace JoinedRoom

/- A roster, and whether a game is on. -/
def fromJson
    (j : Json) : Except String JoinedRoom := do
  let roomId ← (← j.atKey "room_id").getUInt64
  let playerNames ← (← j.atKey "player_names").getList getString
  let hostName ← (← j.atKey "host_name").getString
  let maxPlayers ← (← j.atKey "max_players").getUInt8
  let inGame ← j.getOr "in_game" getBoolean false
  .ok ⟨roomId, playerNames, hostName, maxPlayers, inGame⟩

end JoinedRoom

namespace GameStateUpdate

/- The table, the cards and the bets. -/
def fromJson
    (j : Json) : Except String GameStateUpdate := do
  let generalCards ←
    Card.listFromJson (← j.atKey "general_cards")
  let yourCards ← Card.listFromJson (← j.atKey "your_cards")
  let phase ← j.atKey "phase"
  let activePlayerName ←
    (← j.atKey "active_player_name").getString
  let totalPot ← (← j.atKey "total_pot").getUInt32
  let currentBet ← j.getOr "current_bet" getUInt32 0
  let players ←
    j.getOr "players" (getList PlayerState.fromJson) []
  .ok ⟨generalCards, yourCards, GamePhase.fromJson phase,
    activePlayerName, totalPot, currentBet, players⟩

end GameStateUpdate

namespace YourTurn

/- The actions on offer and their bounds. -/
def fromJson
    (j : Json) : Except String YourTurn := do
  let availableActions ←
    (← j.atKey "available_actions").getList
      fun action => .ok (Action.fromJson action)
  let minAmount ← (← j.atKey "min_amount").getUInt32
  let maxAmount ← (← j.atKey "max_amount").getUInt32
  let toCall ← j.getOr "to_call" getUInt32 0
  let yourChips ← j.getOr "your_chips" getUInt32 0
  .ok ⟨availableActions, minAmount, maxAmount, toCall,
    yourChips⟩

end YourTurn

namespace ActionEvent

/- The amount as in `PlayerAction`. -/
def fromJson
    (j : Json) : Except String ActionEvent := do
  let playerName ← (← j.atKey "player_name").getString
  let action ← j.atKey "action"
  let amount ← PlayerAction.amountFromJson j
  .ok ⟨playerName, Action.fromJson action, amount⟩

end ActionEvent

namespace Error

/- A code and its text. -/
def fromJson
    (j : Json) : Except String Error := do
  let code ← (← j.atKey "code").getInt32
  let description ← (← j.atKey "description").getString
  .ok ⟨code, description⟩

end Error

namespace LeftRoom

/- The chips and the flag may be absent. -/
def fromJson
    (j : Json) : Except String LeftRoom := do
  let roomId ← (← j.atKey "room_id").getUInt64
  let yourChips ← j.getOr "your_chips" getUInt32 0
  let hasYourChips ← j.getOr "has_your_chips" getBoolean false
  .ok ⟨roomId, yourChips, hasYourChips⟩

end LeftRoom

namespace HandResult

/- The labels may be absent. -/
def fromJson
    (j : Json) : Except String HandResult := do
  let winnerNames ← (← j.atKey "winner_names").getList getString
  let potAmount ← (← j.atKey "pot_amount").getUInt32
  let winnerHandLabels ←
    j.getOr "winner_hand_labels" (getList getString) []
  .ok ⟨winnerNames, potAmount, winnerHandLabels⟩

end HandResult

------------------------------------------------------------
-- Server Messages
------------------------------------------------------------

namespace ServerMessage

/- The text of the `std::invalid_argument` of `from_json`. -/
def unknownType
    (type : String) : String :=
  "Unknown ServerMessage type: " ++ type

/- `from_json` once the type is read. -/
def fromTyped
    (type : String)
    (j : Json) : Except String ServerMessage :=
  match type with
  | "welcome" => do
      .ok (.welcome (← Welcome.fromJson (← j.atKey "data")))
  | "room_list" => do
      .ok (.roomList (← RoomList.fromJson (← j.atKey "data")))
  | "joined_room" => do
      .ok (.joinedRoom
        (← JoinedRoom.fromJson (← j.atKey "data")))
  | "game_state_update" => do
      .ok (.gameStateUpdate
        (← GameStateUpdate.fromJson (← j.atKey "data")))
  | "your_turn" => do
      .ok (.yourTurn (← YourTurn.fromJson (← j.atKey "data")))
  | "error" => do
      .ok (.error (← Error.fromJson (← j.atKey "data")))
  | "left_room" => do
      .ok (.leftRoom (← LeftRoom.fromJson (← j.atKey "data")))
  | "hand_result" => do
      .ok (.handResult
        (← HandResult.fromJson (← j.atKey "data")))
  | "action_event" => do
      .ok (.actionEvent
        (← ActionEvent.fromJson (← j.atKey "data")))
  | other => .error (unknownType other)

/- `from_json`. -/
def fromJson
    (j : Json) : Except String ServerMessage := do
  let type ← (← j.atKey "type").getString
  fromTyped type j

end ServerMessage

end Protocol

end Poker

import AsciiPoker.Common.Card

/-
  Actions, phases, errors and messages (`protocol.h`,
  `protocol.cpp`, `error_codes.h`, `game_constants.h`).

  Main declarations:
    * `Action`, `GamePhase`, `ErrorCode`
    * `ClientMessage`, `ServerMessage`
    * `makeError`
-/

------------------------------------------------------------
-- Constants and Enumerations
------------------------------------------------------------

namespace Poker

/- The chips of a new account. -/
def STARTING_CHIPS : UInt32 := 1000

/- The blinds of every table. -/
def SMALL_BLIND : UInt32 := 10

/- It is also what a seat costs, and the least raise. -/
def BIG_BLIND : UInt32 := 20

namespace Protocol

/- What a player may do when it is his turn. -/
inductive Action
  | fold
  | check
  | call
  | raise
  deriving DecidableEq, Repr

/- The streets of a hand, and its end. -/
inductive GamePhase
  | preFlop
  | flop
  | turn
  | river
  | showdown
  deriving DecidableEq, Repr

/- Why the server refuses a packet. -/
inductive ErrorCode
  | invalidJson
  | invalidMessage
  | joinFailed
  | notInRoom
  | notYourTurn
  | cannotCheck
  | invalidRaise
  | notEnoughChips
  | invalidMaxPlayers
  | nameTaken
  | invalidPlayerName
  | notAuthenticated
  | roomFull
  | notRoomHost
  | notEnoughPlayers
  | gameAlreadyStarted
  | wrongPassword
  | alreadyOnline
  | invalidPassword
  deriving DecidableEq, Repr

namespace ErrorCode

/- The underlying value of the enumeration. -/
def toInt : ErrorCode → Int
| .invalidJson => 1
| .invalidMessage => 2
| .joinFailed => 3
| .notInRoom => 4
| .notYourTurn => 5
| .cannotCheck => 6
| .invalidRaise => 7
| .notEnoughChips => 8
| .invalidMaxPlayers => 9
| .nameTaken => 10
| .invalidPlayerName => 11
| .notAuthenticated => 12
| .roomFull => 13
| .notRoomHost => 14
| .notEnoughPlayers => 15
| .gameAlreadyStarted => 16
| .wrongPassword => 17
| .alreadyOnline => 18
| .invalidPassword => 19

/- `error_code_message`. -/
def message : ErrorCode → String
| .invalidJson => "Invalid JSON"
| .invalidMessage => "Invalid message"
| .joinFailed => "Join to room failed"
| .notInRoom => "Not in a room"
| .notYourTurn => "Not your turn"
| .cannotCheck => "Cannot check – there is a bet"
| .invalidRaise => "Invalid raise amount"
| .notEnoughChips => "Not enough chips"
| .invalidMaxPlayers => "max_players must be at least 2"
| .nameTaken => "Player name is already taken"
| .invalidPlayerName => "Invalid player name"
| .notAuthenticated =>
    "Send login with username and password first"
| .roomFull => "Room is full"
| .notRoomHost => "Only the room host can start the game"
| .notEnoughPlayers =>
    "At least 2 players are required to start"
| .gameAlreadyStarted => "Game has already started"
| .wrongPassword => "Wrong password"
| .alreadyOnline => "Account is already online"
| .invalidPassword =>
    "Invalid password (4-128 chars, letter and digit required)"

end ErrorCode

------------------------------------------------------------
-- Client Messages
------------------------------------------------------------

/- Asks for an account, or for a new one. -/
structure Login where
  username : String
  password : String
  deriving DecidableEq, Repr

/- Asks for a room with so many seats. -/
structure CreateRoom where
  roomName : String
  maxPlayers : UInt8
  deriving DecidableEq, Repr

/- Asks for a seat in a room. -/
structure JoinRoom where
  roomId : UInt64
  deriving DecidableEq, Repr

/- A move; the amount is that of a raise. -/
structure PlayerAction where
  action : Action
  amount : Option UInt32
  deriving DecidableEq, Repr

/- What a client may send. -/
inductive ClientMessage
  | login (msg : Login)
  | createRoom (msg : CreateRoom)
  | joinRoom (msg : JoinRoom)
  | leaveRoom
  | listRooms
  | startGame
  | playerAction (msg : PlayerAction)
  deriving DecidableEq, Repr

------------------------------------------------------------
-- Server Messages
------------------------------------------------------------

/- The login was accepted. -/
structure Welcome where
  playerName : String
  chips : UInt32 := 0
  isNewAccount : Bool := false
  deriving DecidableEq, Repr

/- A room as the list of rooms shows it. -/
structure RoomInfo where
  roomId : UInt64
  roomName : String
  currentPlayers : UInt8
  maxPlayers : UInt8
  inGame : Bool := false
  deriving DecidableEq, Repr

/- All rooms there are. -/
structure RoomList where
  rooms : List RoomInfo
  deriving DecidableEq, Repr

/- The roster of a room, sent to whoever sits in it. -/
structure JoinedRoom where
  roomId : UInt64
  playerNames : List String
  hostName : String
  maxPlayers : UInt8
  inGame : Bool := false
  deriving DecidableEq, Repr

/- A seat as the others see it; cards are shown at the end. -/
structure PlayerState where
  name : String
  chips : UInt32 := 0
  roundBet : UInt32 := 0
  folded : Bool := false
  allIn : Bool := false
  isDealer : Bool := false
  isSmallBlind : Bool := false
  isBigBlind : Bool := false
  holeCards : List Card := []
  deriving DecidableEq, Repr

/- The table as one player sees it. -/
structure GameStateUpdate where
  generalCards : List Card
  yourCards : List Card
  phase : GamePhase
  activePlayerName : String := ""
  totalPot : UInt32 := 0
  currentBet : UInt32 := 0
  players : List PlayerState
  deriving DecidableEq, Repr

/- What the player on turn may do. -/
structure YourTurn where
  availableActions : List Action
  minAmount : UInt32 := 0
  maxAmount : UInt32 := 0
  toCall : UInt32 := 0
  yourChips : UInt32 := 0
  deriving DecidableEq, Repr

/- What a player has done. -/
structure ActionEvent where
  playerName : String
  action : Action
  amount : Option UInt32
  deriving DecidableEq, Repr

/- A refusal: its code and its text. -/
structure Error where
  code : Int32
  description : String
  deriving DecidableEq, Repr

/- The player left, with what his account has now. -/
structure LeftRoom where
  roomId : UInt64
  yourChips : UInt32 := 0
  hasYourChips : Bool := false
  deriving DecidableEq, Repr

/- Who won a hand, how much, and with which hands. -/
structure HandResult where
  winnerNames : List String
  potAmount : UInt32
  winnerHandLabels : List String
  deriving DecidableEq, Repr

/- What the server may send. -/
inductive ServerMessage
  | welcome (msg : Welcome)
  | roomList (msg : RoomList)
  | joinedRoom (msg : JoinedRoom)
  | gameStateUpdate (msg : GameStateUpdate)
  | yourTurn (msg : YourTurn)
  | error (msg : Error)
  | leftRoom (msg : LeftRoom)
  | handResult (msg : HandResult)
  | actionEvent (msg : ActionEvent)
  deriving DecidableEq, Repr

/- `make_error`: the code's text, then any detail. -/
def makeError
    (code : ErrorCode)
    (detail : String) : Error where
  code := Int32.ofInt code.toInt
  description :=
    if detail = "" then
      code.message
    else
      code.message ++ ": " ++ detail

end Protocol

end Poker

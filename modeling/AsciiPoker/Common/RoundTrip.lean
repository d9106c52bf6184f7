import AsciiPoker.Library.Failure
import AsciiPoker.Library.Word32
import AsciiPoker.Common.Encoding
import AsciiPoker.Common.ServerCodec

/-
  Messages are read as they were written.

  Main declarations:
    * `Card.fromJson_toJson`
    * `Protocol.codec_roundTrip`
-/

------------------------------------------------------------
-- Values
------------------------------------------------------------

namespace Poker

namespace Json

/- Members are looked up where they are read. -/
@[simp] theorem atKey_object_cons
    (key other : String)
    (value : Json)
    (members : List (String × Json)) :
    (object ((other, value) :: members)).atKey key =
      if other = key then
        .ok value
      else
        (object members).atKey key := by
  by_cases hEq : other = key
  · simp [atKey, hEq]
  · simp [atKey, hEq]

/- A member that is there needs no default. -/
@[simp] theorem getOr_object_cons
    {α : Type}
    (key other : String)
    (get : Json → Except String α)
    (default : α)
    (value : Json)
    (members : List (String × Json)) :
    (object ((other, value) :: members)).getOr key get
        default =
      if other = key then
        get value
      else
        (object members).getOr key get default := by
  by_cases hEq : other = key
  · simp [getOr, hEq]
  · simp [getOr, hEq]

/- Scalars are read as they are. -/
@[simp] theorem getString_string
    (value : String) :
    (string value).getString = .ok value := rfl

/- The same of Booleans. -/
@[simp] theorem getBoolean_boolean
    (value : Bool) :
    (boolean value).getBoolean = .ok value := rfl

/- A number of its own width is read without a loss. -/
@[simp] theorem getUInt8_ofUInt8
    (value : UInt8) :
    (ofUInt8 value).getUInt8 = .ok value := by
  simp [ofUInt8, getUInt8, getArithmetic]

/- So it is with 32 bits. -/
@[simp] theorem getUInt32_ofUInt32
    (value : UInt32) :
    (ofUInt32 value).getUInt32 = .ok value := by
  simp [ofUInt32, getUInt32, getArithmetic]

/- With the 64 bits that the value has anyway. -/
@[simp] theorem getUInt64_unsigned
    (value : UInt64) :
    (unsigned value).getUInt64 = .ok value := by
  simp [getUInt64, getArithmetic]

/- And with a sign. -/
@[simp] theorem getInt32_ofInt32
    (value : Int32) :
    (ofInt32 value).getInt32 = .ok value := by
  simp [ofInt32, getInt32, getArithmetic]

/- A list is read as its elements are. -/
theorem getList_ofList
    {α : Type}
    {toJson : α → Json}
    {get : Json → Except String α}
    (hEach : ∀ a, get (toJson a) = .ok a)
    (values : List α) :
    (ofList toJson values).getList get = .ok values :=
  List.mapM_map_eq_ok hEach values

/- A list of names. -/
@[simp] theorem getList_getString
    (values : List String) :
    (ofList string values).getList getString = .ok values :=
  getList_ofList getString_string values

end Json

open Json

/- Every card of the deck, symbol by symbol. -/
@[simp] theorem Card.fromJson_toJson
    (card : Card) :
    Card.fromJson card.toJson = .ok card := by
  rcases card with ⟨suit, rank⟩
  cases suit <;> cases rank <;> decide

/- The cards of a hand, one after the other. -/
@[simp] theorem Card.listFromJson_ofList
    (cards : List Card) :
    Card.listFromJson (ofList Card.toJson cards) = .ok cards :=
  List.mapM_map_eq_ok Card.fromJson_toJson cards

namespace Protocol

/- The four words of the actions are told apart. -/
@[simp] theorem Action.fromJson_toJson
    (action : Action) :
    Action.fromJson action.toJson = action := by
  cases action <;> rfl

/- So are the five of the phases. -/
@[simp] theorem GamePhase.fromJson_toJson
    (phase : GamePhase) :
    GamePhase.fromJson phase.toJson = phase := by
  cases phase <;> rfl

------------------------------------------------------------
-- Members
------------------------------------------------------------

/- A room of the list, with all its fields. -/
@[simp] theorem RoomInfo.fromJson_toJson
    (msg : RoomInfo) :
    RoomInfo.fromJson msg.toJson = .ok msg := by
  simp [RoomInfo.fromJson, RoomInfo.toJson]

/- A seat: every member is written, so no default is used. -/
@[simp] theorem PlayerState.fromJson_toJson
    (msg : PlayerState) :
    PlayerState.fromJson msg.toJson = .ok msg := by
  simp [PlayerState.fromJson, PlayerState.toJson]

/- An amount is read whether it is there or null. -/
theorem amountFromJson_of_find?
    {j : Json}
    {amount : Option UInt32}
    (hFind : j.find? "amount" = some (amountToJson amount)) :
    PlayerAction.amountFromJson j = .ok amount := by
  unfold PlayerAction.amountFromJson
  rw [hFind]
  cases amount with
  | none => rfl
  | some total =>
      have hValue : (ofUInt32 total).isNull = false := rfl
      simp [amountToJson, hValue, Except.map]

------------------------------------------------------------
-- Client Messages
------------------------------------------------------------

/- Each message under its own name. -/
@[simp] theorem Login.fromJson_toJson
    (msg : Login) :
    Login.fromJson msg.toJson = .ok msg := by
  simp [Login.fromJson, Login.toJson]

/- The seats of a room fit into eight bits on both sides. -/
@[simp] theorem CreateRoom.fromJson_toJson
    (msg : CreateRoom) :
    CreateRoom.fromJson msg.toJson = .ok msg := by
  simp [CreateRoom.fromJson, CreateRoom.toJson]

/- The id keeps its 64 bits. -/
@[simp] theorem JoinRoom.fromJson_toJson
    (msg : JoinRoom) :
    JoinRoom.fromJson msg.toJson = .ok msg := by
  simp [JoinRoom.fromJson, JoinRoom.toJson]

/- An absent amount is written as null and read as absent. -/
@[simp] theorem PlayerAction.fromJson_toJson
    (msg : PlayerAction) :
    PlayerAction.fromJson msg.toJson = .ok msg := by
  have hAmount : PlayerAction.amountFromJson msg.toJson =
      .ok msg.amount :=
    amountFromJson_of_find? (by simp [PlayerAction.toJson])
  unfold PlayerAction.fromJson
  rw [hAmount]
  simp [PlayerAction.toJson]

/- The type selects the reader of what was written. -/
theorem ClientMessage.fromJson_toJson
    (msg : ClientMessage) :
    ClientMessage.fromJson msg.toJson = .ok msg := by
  have hData : msg.toJson.atKey "data" = .ok msg.data := by
    simp [ClientMessage.toJson]
  have hType : ClientMessage.fromJson msg.toJson =
      ClientMessage.fromTyped msg.type msg.toJson := by
    simp [ClientMessage.fromJson, ClientMessage.toJson]
  rw [hType]
  cases msg with
  | login msg =>
      simp [ClientMessage.fromTyped, ClientMessage.type, hData,
        ClientMessage.data]
  | createRoom msg =>
      simp [ClientMessage.fromTyped, ClientMessage.type, hData,
        ClientMessage.data]
  | joinRoom msg =>
      simp [ClientMessage.fromTyped, ClientMessage.type, hData,
        ClientMessage.data]
  | leaveRoom =>
      simp [ClientMessage.fromTyped, ClientMessage.type, hData]
  | listRooms =>
      simp [ClientMessage.fromTyped, ClientMessage.type, hData]
  | startGame =>
      simp [ClientMessage.fromTyped, ClientMessage.type, hData]
  | playerAction msg =>
      simp [ClientMessage.fromTyped, ClientMessage.type, hData,
        ClientMessage.data]

------------------------------------------------------------
-- Server Messages
------------------------------------------------------------

/- Each answer under its own name. -/
@[simp] theorem Welcome.fromJson_toJson
    (msg : Welcome) :
    Welcome.fromJson msg.toJson = .ok msg := by
  simp [Welcome.fromJson, Welcome.toJson]

/- The rooms are read one by one. -/
@[simp] theorem RoomList.fromJson_toJson
    (msg : RoomList) :
    RoomList.fromJson msg.toJson = .ok msg := by
  simp [RoomList.fromJson, RoomList.toJson,
    getList_ofList RoomInfo.fromJson_toJson]

/- A roster keeps the order of its names. -/
@[simp] theorem JoinedRoom.fromJson_toJson
    (msg : JoinedRoom) :
    JoinedRoom.fromJson msg.toJson = .ok msg := by
  simp [JoinedRoom.fromJson, JoinedRoom.toJson]

/- The seats of the table are read one by one. -/
@[simp] theorem GameStateUpdate.fromJson_toJson
    (msg : GameStateUpdate) :
    GameStateUpdate.fromJson msg.toJson = .ok msg := by
  simp [GameStateUpdate.fromJson, GameStateUpdate.toJson,
    getList_ofList PlayerState.fromJson_toJson]

/- The actions on offer are read word by word. -/
@[simp] theorem YourTurn.fromJson_toJson
    (msg : YourTurn) :
    YourTurn.fromJson msg.toJson = .ok msg := by
  have hActions :
      (ofList Action.toJson msg.availableActions).getList
          (fun action => .ok (Action.fromJson action)) =
        .ok msg.availableActions := by
    apply getList_ofList
    intro action
    rw [Action.fromJson_toJson]
  simp [YourTurn.fromJson, YourTurn.toJson, hActions]

/- The amount is that of the request it tells of. -/
@[simp] theorem ActionEvent.fromJson_toJson
    (msg : ActionEvent) :
    ActionEvent.fromJson msg.toJson = .ok msg := by
  have hAmount : PlayerAction.amountFromJson msg.toJson =
      .ok msg.amount :=
    amountFromJson_of_find? (by simp [ActionEvent.toJson])
  unfold ActionEvent.fromJson
  rw [hAmount]
  simp [ActionEvent.toJson]

/- A code keeps its sign. -/
@[simp] theorem Error.fromJson_toJson
    (msg : Error) :
    Error.fromJson msg.toJson = .ok msg := by
  simp [Error.fromJson, Error.toJson]

/- Whether chips were sent is a member of its own. -/
@[simp] theorem LeftRoom.fromJson_toJson
    (msg : LeftRoom) :
    LeftRoom.fromJson msg.toJson = .ok msg := by
  simp [LeftRoom.fromJson, LeftRoom.toJson]

/- Names and labels stay side by side. -/
@[simp] theorem HandResult.fromJson_toJson
    (msg : HandResult) :
    HandResult.fromJson msg.toJson = .ok msg := by
  simp [HandResult.fromJson, HandResult.toJson]

/- Here too the type selects the reader. -/
theorem ServerMessage.fromJson_toJson
    (msg : ServerMessage) :
    ServerMessage.fromJson msg.toJson = .ok msg := by
  have hData : msg.toJson.atKey "data" = .ok msg.data := by
    simp [ServerMessage.toJson]
  have hType : ServerMessage.fromJson msg.toJson =
      ServerMessage.fromTyped msg.type msg.toJson := by
    simp [ServerMessage.fromJson, ServerMessage.toJson]
  rw [hType]
  unfold ServerMessage.fromTyped
  cases msg with
  | welcome msg =>
      simp [ServerMessage.type, hData, ServerMessage.data]
  | roomList msg =>
      simp [ServerMessage.type, hData, ServerMessage.data]
  | joinedRoom msg =>
      simp [ServerMessage.type, hData, ServerMessage.data]
  | gameStateUpdate msg =>
      simp [ServerMessage.type, hData, ServerMessage.data]
  | yourTurn msg =>
      simp [ServerMessage.type, hData, ServerMessage.data]
  | error msg =>
      simp [ServerMessage.type, hData, ServerMessage.data]
  | leftRoom msg =>
      simp [ServerMessage.type, hData, ServerMessage.data]
  | handResult msg =>
      simp [ServerMessage.type, hData, ServerMessage.data]
  | actionEvent msg =>
      simp [ServerMessage.type, hData, ServerMessage.data]

------------------------------------------------------------
-- Both Directions
------------------------------------------------------------

/- Every message is read as it was written. -/
theorem codec_roundTrip :
    (∀ msg : ClientMessage,
      ClientMessage.fromJson msg.toJson = .ok msg) ∧
    ∀ msg : ServerMessage,
      ServerMessage.fromJson msg.toJson = .ok msg := by
  constructor
  · exact ClientMessage.fromJson_toJson
  · exact ServerMessage.fromJson_toJson

end Protocol

end Poker

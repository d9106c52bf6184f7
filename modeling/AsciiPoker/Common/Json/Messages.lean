import AsciiPoker.Common.Json.Texts

/-
  Messages are read from the texts they are written as.

  Main declarations:
    * `Protocol.ClientMessage.plain_toJson`,
      `Protocol.ServerMessage.plain_toJson`
    * `Protocol.text_roundTrip`
-/

namespace Poker

open Json (Plain ofUInt8 ofUInt32 ofInt32 ofList)

------------------------------------------------------------
-- Values
------------------------------------------------------------

namespace Json

attribute [simp] Plain.null Plain.boolean Plain.unsigned
  Plain.string

/- Numbers are plain, whatever their width. -/
@[simp] theorem plain_ofUInt8
    (value : UInt8) :
    Plain (ofUInt8 value) :=
  .unsigned _

/- The same of 32 bits. -/
@[simp] theorem plain_ofUInt32
    (value : UInt32) :
    Plain (ofUInt32 value) :=
  .unsigned _

/- And of the codes of errors, which have a sign. -/
@[simp] theorem plain_ofInt32
    (value : Int32) :
    Plain (ofInt32 value) := by
  have hLow := value.le_toInt
  have hHigh := value.toInt_lt
  exact .integer (by omega) (by omega)

/- A list of what is plain is plain. -/
theorem plain_ofList
    {α : Type}
    {toJson : α → Json}
    {values : List α}
    (hEach : ∀ a, Plain (toJson a)) :
    Plain (ofList toJson values) := by
  refine .array fun j hMem => ?_
  rcases List.mem_map.mp hMem with ⟨a, _, rfl⟩
  exact hEach a

/- Names are sent as lists of strings. -/
@[simp] theorem plain_strings
    (values : List String) :
    Plain (ofList .string values) :=
  plain_ofList Plain.string

end Json

/- A card is a string of two symbols. -/
@[simp] theorem Card.plain_toJson
    (card : Card) :
    Plain card.toJson :=
  .string _

/- So a hand of cards is plain. -/
@[simp] theorem Card.plain_list
    (cards : List Card) :
    Plain (ofList Card.toJson cards) :=
  Json.plain_ofList Card.plain_toJson

namespace Protocol

/- An action is a word. -/
@[simp] theorem Action.plain_toJson
    (action : Action) :
    Plain action.toJson := by
  cases action <;> exact .string _

/- So is a phase. -/
@[simp] theorem GamePhase.plain_toJson
    (phase : GamePhase) :
    Plain phase.toJson := by
  cases phase <;> exact .string _

/- An amount is a number or null. -/
@[simp] theorem plain_amountToJson
    (amount : Option UInt32) :
    Plain (amountToJson amount) := by
  cases amount with
  | none => exact .null
  | some amount => exact Json.plain_ofUInt32 amount

/- An entry of the list of rooms. -/
@[simp] theorem RoomInfo.plain_toJson
    (msg : RoomInfo) :
    Plain msg.toJson :=
  .object (by simp) (by simp)

/- A seat of the table. -/
@[simp] theorem PlayerState.plain_toJson
    (msg : PlayerState) :
    Plain msg.toJson :=
  .object (by simp) (by simp)

------------------------------------------------------------
-- Messages
------------------------------------------------------------

/- The members of a message have different keys. -/
theorem ClientMessage.plain_data
    (msg : ClientMessage) :
    Plain msg.data := by
  cases msg with
  | login msg => exact .object (by simp) (by simp)
  | createRoom msg => exact .object (by simp) (by simp)
  | joinRoom msg => exact .object (by simp) (by simp)
  | leaveRoom => exact .object (by simp) (by simp)
  | listRooms => exact .object (by simp) (by simp)
  | startGame => exact .object (by simp) (by simp)
  | playerAction msg => exact .object (by simp) (by simp)

/- The envelope has two keys, `type` and `data`. -/
theorem ClientMessage.plain_toJson
    (msg : ClientMessage) :
    Plain msg.toJson :=
  .object (by simp) (by simp [msg.plain_data])

/- The lists in a message are made of plain members. -/
theorem ServerMessage.plain_data
    (msg : ServerMessage) :
    Plain msg.data := by
  have hActions : ∀ actions : List Action,
      Plain (ofList Action.toJson actions) :=
    fun _ => Json.plain_ofList Action.plain_toJson
  have hRooms : ∀ rooms : List RoomInfo,
      Plain (ofList RoomInfo.toJson rooms) :=
    fun _ => Json.plain_ofList RoomInfo.plain_toJson
  have hPlayers : ∀ players : List PlayerState,
      Plain (ofList PlayerState.toJson players) :=
    fun _ => Json.plain_ofList PlayerState.plain_toJson
  cases msg with
  | welcome msg => exact .object (by simp) (by simp)
  | roomList msg => exact .object (by simp) (by simp [hRooms])
  | joinedRoom msg => exact .object (by simp) (by simp)
  | gameStateUpdate msg =>
      exact .object (by simp) (by simp [hPlayers])
  | yourTurn msg =>
      exact .object (by simp) (by simp [hActions])
  | error msg => exact .object (by simp) (by simp)
  | leftRoom msg => exact .object (by simp) (by simp)
  | handResult msg => exact .object (by simp) (by simp)
  | actionEvent msg => exact .object (by simp) (by simp)

/- The envelope is that of the client. -/
theorem ServerMessage.plain_toJson
    (msg : ServerMessage) :
    Plain msg.toJson :=
  .object (by simp) (by simp [msg.plain_data])

------------------------------------------------------------
-- Texts
------------------------------------------------------------

/-
  The bytes of every message are parsed as a value from which
  the message is read, whatever doubles are written as and
  read as.
-/
theorem text_roundTrip
    (strtod : Json.Strtod)
    (dumpFloat : Rat → List Char) :
    (∀ msg : ClientMessage, ∃ j,
      Json.parse strtod
          (Utf8.encode (msg.toJson.dump dumpFloat)) =
        .ok j ∧ ClientMessage.fromJson j = .ok msg) ∧
    ∀ msg : ServerMessage, ∃ j,
      Json.parse strtod
          (Utf8.encode (msg.toJson.dump dumpFloat)) =
        .ok j ∧ ServerMessage.fromJson j = .ok msg := by
  constructor
  · intro msg
    exact ⟨_, msg.plain_toJson.parse_dump strtod dumpFloat,
      msg.fromJson_canonical⟩
  · intro msg
    exact ⟨_, msg.plain_toJson.parse_dump strtod dumpFloat,
      msg.fromJson_canonical⟩

end Protocol

end Poker

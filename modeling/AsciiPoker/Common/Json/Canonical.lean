import AsciiPoker.Common.RoundTrip

/-
  What is left of a value in its text.

  The text of a value has the members of an object in the
  order of their keys, and an integer from 0 on in it is an
  unsigned one for the parser.  Nothing that reads a message
  sees the difference.

  Main declarations:
    * `Json.canonical`, `Json.Respects`
    * `Json.atKey_canonical`, `Json.getArithmetic_canonical`
    * `Protocol.ClientMessage.fromJson_respects`,
      `Protocol.ServerMessage.fromJson_respects`
-/

namespace Poker

namespace Json

------------------------------------------------------------
-- Canonical Values
------------------------------------------------------------

mutual

/- The value that is parsed from the text of a value. -/
def canonical : Json → Json
| .null => .null
| .boolean value => .boolean value
| .integer value =>
    if 0 ≤ value ∧ value < 2 ^ 64 then
      .unsigned (UInt64.ofNat value.toNat)
    else
      .integer value
| .unsigned value => .unsigned value
| .float value => .float value
| .string value => .string value
| .array elements => .array (canonicalElements elements)
| .object members =>
    .object ((canonicalMembers members).insertionSort
      fun a b => a.1 ≤ b.1)

/- Each element of an array. -/
def canonicalElements : List Json → List Json
| [] => []
| value :: values =>
    canonical value :: canonicalElements values

/- Each member of an object, still in its place. -/
def canonicalMembers :
    List (String × Json) → List (String × Json)
| [] => []
| entry :: entries =>
    canonicalMember entry :: canonicalMembers entries

/- A member keeps its key. -/
def canonicalMember : String × Json → String × Json
| (key, value) => (key, canonical value)

end

/- The mutual recursion is a map over the elements. -/
theorem canonicalElements_eq
    (elements : List Json) :
    canonicalElements elements = elements.map canonical := by
  induction elements with
  | nil => rfl
  | cons value values ih =>
      rw [canonicalElements, ih, List.map_cons]

/- And a map over the members. -/
theorem canonicalMembers_eq
    (members : List (String × Json)) :
    canonicalMembers members =
      members.map fun m => (m.1, canonical m.2) := by
  induction members with
  | nil => rfl
  | cons entry entries ih =>
      rcases entry with ⟨key, value⟩
      rw [canonicalMembers, canonicalMember, ih,
        List.map_cons]

/- The order does not depend on what the keys are for. -/
theorem insertionSort_map
    {α : Type}
    (members : List (String × Json))
    (f : Json → α) :
    (members.map fun m => (m.1, f m.2)).insertionSort
        (fun a b => a.1 ≤ b.1) =
      (members.insertionSort fun a b => a.1 ≤ b.1).map
        fun m => (m.1, f m.2) :=
  (List.map_insertionSort
    (fun a b : String × Json => a.1 ≤ b.1)
    (fun a b : String × α => a.1 ≤ b.1)
    (fun m => (m.1, f m.2)) members
    fun _ _ _ _ => Iff.rfl).symm

/- An object has the members it had, in order. -/
theorem canonical_object
    (members : List (String × Json)) :
    canonical (.object members) =
      .object ((members.insertionSort
        fun a b => a.1 ≤ b.1).map
          fun m => (m.1, canonical m.2)) := by
  rw [canonical, canonicalMembers_eq, insertionSort_map]

/- An integer stays a number, of one kind or the other. -/
theorem canonical_integer
    (value : Int) :
    canonical (.integer value) = .integer value ∨
      0 ≤ value ∧ value < 2 ^ 64 ∧
        canonical (.integer value) =
          .unsigned (UInt64.ofNat value.toNat) := by
  rw [canonical]
  split
  case isTrue hRange =>
    exact Or.inr ⟨hRange.1, hRange.2, rfl⟩
  case isFalse => exact Or.inl rfl

------------------------------------------------------------
-- Looking into Values
------------------------------------------------------------

/- A member is found in whatever order the members are. -/
theorem find?_orderedInsert
    (key : String)
    (entry : String × Json)
    (members : List (String × Json)) :
    (members.orderedInsert (fun a b => a.1 ≤ b.1)
        entry).find? (·.1 = key) =
      (entry :: members).find? (·.1 = key) := by
  induction members with
  | nil => rfl
  | cons first members ih =>
      rw [List.orderedInsert]
      split
      · rfl
      next hGreater =>
        have hNe : entry.1 ≠ first.1 := by
          intro hEq
          exact hGreater (le_of_eq hEq)
        rw [List.find?_cons, ih, List.find?_cons,
          List.find?_cons, List.find?_cons]
        by_cases hEntry : entry.1 = key
        · have hFirst : first.1 ≠ key := fun hFirst =>
            hNe (hEntry.trans hFirst.symm)
          simp [hEntry, hFirst]
        · simp [hEntry]

/- Sorting puts no member before one with its key. -/
theorem find?_insertionSort
    (key : String)
    (members : List (String × Json)) :
    (members.insertionSort fun a b => a.1 ≤ b.1).find?
        (·.1 = key) =
      members.find? (·.1 = key) := by
  induction members with
  | nil => rfl
  | cons entry members ih =>
      rw [List.insertionSort_cons, find?_orderedInsert,
        List.find?_cons, List.find?_cons, ih]

/- What is found under a key is canonical itself. -/
theorem find?_canonical
    (key : String)
    (j : Json) :
    (canonical j).find? key =
      (j.find? key).map canonical := by
  cases j with
  | object members =>
      rw [canonical_object, find?, List.find?_map,
        Function.comp_def, find?_insertionSort, find?,
        Option.map_map, Option.map_map]
      rfl
  | integer value =>
      rcases canonical_integer value with h | ⟨_, _, h⟩
      · rw [h]
        rfl
      · rw [h]
        rfl
  | _ => rfl

/- The texts of errors name no other type. -/
@[simp] theorem typeName_canonical
    (j : Json) :
    (canonical j).typeName = j.typeName := by
  cases j with
  | integer value =>
      rcases canonical_integer value with h | ⟨_, _, h⟩
      · rw [h]
      · rw [h]
        rfl
  | _ => rfl

/- `at` fails as it did, or yields a canonical member. -/
@[simp] theorem atKey_canonical
    (key : String)
    (j : Json) :
    (canonical j).atKey key =
      (j.atKey key).map canonical := by
  cases j with
  | object members =>
      have hFind := find?_canonical key (.object members)
      rw [canonical] at hFind ⊢
      unfold atKey
      dsimp only
      rw [hFind]
      cases (object members).find? key with
      | none => rfl
      | some value => rfl
  | integer value =>
      rcases canonical_integer value with h | ⟨_, _, h⟩
      · rw [h]
        rfl
      · rw [h]
        rfl
  | _ => rfl

/- The items are gone through in the same order. -/
theorem items_canonical
    (j : Json) :
    (canonical j).items = j.items.map canonical := by
  cases j with
  | array elements =>
      rw [canonical, canonicalElements_eq]
      rfl
  | object members =>
      rw [canonical_object, items, insertionSort_map,
        List.Pairwise.insertionSort_eq
          (List.pairwise_insertionSort _ members), items,
        List.map_map, List.map_map]
      rfl
  | integer value =>
      rcases canonical_integer value with h | ⟨_, _, h⟩
      · simp [items, h]
      · simp [items, h]
  | _ => rfl

/- Nothing becomes null that was not. -/
@[simp] theorem isNull_canonical
    (j : Json) :
    (canonical j).isNull = j.isNull := by
  cases j with
  | integer value =>
      rcases canonical_integer value with h | ⟨_, _, h⟩
      · rw [h]
      · rw [h]
        rfl
  | _ => rfl

------------------------------------------------------------
-- Reading Values
------------------------------------------------------------

/- A reader that does not see whether a value is canonical. -/
def Respects
    {α : Type}
    (read : Json → α) : Prop :=
  ∀ j, read (canonical j) = read j

/- A failure to look a member up comes before its reading. -/
@[simp] theorem map_canonical_bind
    {α : Type}
    (x : Except String Json)
    (next : Json → Except String α) :
    x.map canonical >>= next =
      x >>= fun value => next (canonical value) := by
  cases x with
  | ok value => rfl
  | error what => rfl

/- A string is left as it is. -/
@[simp] theorem getString_canonical
    (j : Json) :
    (canonical j).getString = j.getString := by
  cases j with
  | integer value =>
      rcases canonical_integer value with h | ⟨_, _, h⟩
      · rw [h]
      · rw [h]
        rfl
  | _ => rfl

/- So is a Boolean. -/
@[simp] theorem getBoolean_canonical
    (j : Json) :
    (canonical j).getBoolean = j.getBoolean := by
  cases j with
  | integer value =>
      rcases canonical_integer value with h | ⟨_, _, h⟩
      · rw [h]
      · rw [h]
        rfl
  | _ => rfl

/- A number is read as what it was before. -/
@[simp] theorem getArithmetic_canonical
    {α : Type}
    (cast : Int → α)
    (fromBoolean : Bool)
    (j : Json) :
    (canonical j).getArithmetic cast fromBoolean =
      j.getArithmetic cast fromBoolean := by
  cases j with
  | integer value =>
      rcases canonical_integer value with
        h | ⟨hNonneg, hBound, h⟩
      · rw [h]
      · have hNat : (UInt64.ofNat value.toNat).toNat =
            value.toNat :=
          UInt64.toNat_ofNat_of_lt' (by
            have hSize : UInt64.size = 2 ^ 64 := rfl
            omega)
        rw [h, getArithmetic, getArithmetic, hNat,
          Int.toNat_of_nonneg hNonneg]
  | _ => rfl

/- The widths that the messages use. -/
@[simp] theorem getUInt8_canonical
    (j : Json) :
    (canonical j).getUInt8 = j.getUInt8 :=
  getArithmetic_canonical _ _ j

/- Chips and bets. -/
@[simp] theorem getUInt32_canonical
    (j : Json) :
    (canonical j).getUInt32 = j.getUInt32 :=
  getArithmetic_canonical _ _ j

/- The ids of rooms. -/
@[simp] theorem getUInt64_canonical
    (j : Json) :
    (canonical j).getUInt64 = j.getUInt64 :=
  getArithmetic_canonical _ _ j

/- The codes of errors. -/
@[simp] theorem getInt32_canonical
    (j : Json) :
    (canonical j).getInt32 = j.getInt32 :=
  getArithmetic_canonical _ _ j

/- Elements that are read alike are read alike as a list. -/
theorem Respects.mapM
    {α : Type}
    {read : Json → Except String α}
    (hRead : Respects read)
    (elements : List Json) :
    (elements.map canonical).mapM read =
      elements.mapM read := by
  rw [List.mapM_map]
  congr 1
  exact funext hRead

/- What is no array fails with the text it had. -/
theorem Respects.getList
    {α : Type}
    {read : Json → Except String α}
    (hRead : Respects read) :
    Respects (Json.getList read) := by
  intro j
  cases j with
  | array elements =>
      rw [canonical, canonicalElements_eq]
      exact hRead.mapM elements
  | integer value =>
      rcases canonical_integer value with h | ⟨_, _, h⟩
      · rw [h]
      · rw [h]
        rfl
  | _ => rfl

/- A member with a default is read like any other. -/
theorem Respects.getOr
    {α : Type}
    {read : Json → Except String α}
    (hRead : Respects read)
    (key : String)
    (default : α) :
    Respects (Json.getOr key read default) := by
  intro j
  unfold Json.getOr
  rw [find?_canonical]
  cases j.find? key with
  | none => rfl
  | some value => exact hRead value

/- The lists of strings and the members with a default. -/
@[simp] theorem getList_getString_canonical
    (j : Json) :
    (canonical j).getList getString = j.getList getString :=
  Respects.getList getString_canonical j

/- Flags may be absent from a message. -/
@[simp] theorem getOr_getBoolean_canonical
    (key : String)
    (default : Bool)
    (j : Json) :
    (canonical j).getOr key getBoolean default =
      j.getOr key getBoolean default :=
  Respects.getOr getBoolean_canonical key default j

/- So are some of the numbers. -/
@[simp] theorem getOr_getUInt32_canonical
    (key : String)
    (default : UInt32)
    (j : Json) :
    (canonical j).getOr key getUInt32 default =
      j.getOr key getUInt32 default :=
  Respects.getOr getUInt32_canonical key default j

end Json

open Json

------------------------------------------------------------
-- Reading Members
------------------------------------------------------------

namespace Card

/- A card is a string. -/
@[simp] theorem fromJson_canonical
    (j : Json) :
    fromJson (canonical j) = fromJson j := by
  simp [fromJson]

/- Cards may also be the values of an object. -/
@[simp] theorem listFromJson_canonical
    (j : Json) :
    listFromJson (canonical j) = listFromJson j := by
  unfold listFromJson
  rw [items_canonical]
  exact Respects.mapM fromJson_canonical j.items

end Card

namespace Protocol

/- An action is read from a string, or is the first one. -/
@[simp] theorem Action.fromJson_canonical
    (j : Json) :
    Action.fromJson (canonical j) = Action.fromJson j := by
  cases j with
  | integer value =>
      rcases canonical_integer value with h | ⟨_, _, h⟩
      · rw [h]
      · rw [h]
        rfl
  | _ => rfl

/- A phase is one, or the default for anything else. -/
@[simp] theorem GamePhase.fromJson_canonical
    (j : Json) :
    GamePhase.fromJson (canonical j) =
      GamePhase.fromJson j := by
  cases j with
  | integer value =>
      rcases canonical_integer value with h | ⟨_, _, h⟩
      · rw [h]
      · rw [h]
        rfl
  | _ => rfl

/- Member by member, in the order of the reader. -/
@[simp] theorem RoomInfo.fromJson_canonical
    (j : Json) :
    RoomInfo.fromJson (canonical j) = RoomInfo.fromJson j := by
  simp [RoomInfo.fromJson]

/- Most members of a seat have a default. -/
@[simp] theorem PlayerState.fromJson_canonical
    (j : Json) :
    PlayerState.fromJson (canonical j) =
      PlayerState.fromJson j := by
  have hCards := Respects.getOr Card.listFromJson_canonical
    "hole_cards" [] j
  simp [PlayerState.fromJson, hCards]

/- An amount may be null or not be there. -/
@[simp] theorem amountFromJson_canonical
    (j : Json) :
    PlayerAction.amountFromJson (canonical j) =
      PlayerAction.amountFromJson j := by
  unfold PlayerAction.amountFromJson
  rw [find?_canonical]
  cases j.find? "amount" with
  | none => rfl
  | some value => simp

------------------------------------------------------------
-- Reading Messages
------------------------------------------------------------

/- Each request under its own name. -/
@[simp] theorem Login.fromJson_canonical
    (j : Json) :
    Login.fromJson (canonical j) = Login.fromJson j := by
  simp [Login.fromJson]

/- A string and a number. -/
@[simp] theorem CreateRoom.fromJson_canonical
    (j : Json) :
    CreateRoom.fromJson (canonical j) =
      CreateRoom.fromJson j := by
  simp [CreateRoom.fromJson]

/- A number alone. -/
@[simp] theorem JoinRoom.fromJson_canonical
    (j : Json) :
    JoinRoom.fromJson (canonical j) = JoinRoom.fromJson j := by
  simp [JoinRoom.fromJson]

/- A word and an amount. -/
@[simp] theorem PlayerAction.fromJson_canonical
    (j : Json) :
    PlayerAction.fromJson (canonical j) =
      PlayerAction.fromJson j := by
  simp [PlayerAction.fromJson]

/- No client message is read in another way. -/
theorem ClientMessage.fromJson_respects :
    Respects ClientMessage.fromJson := by
  intro j
  unfold ClientMessage.fromJson
  simp only [atKey_canonical, map_canonical_bind,
    getString_canonical]
  congr 1
  funext value
  congr 1
  funext type
  unfold ClientMessage.fromTyped
  split <;> simp

/- Each answer under its own name. -/
@[simp] theorem Welcome.fromJson_canonical
    (j : Json) :
    Welcome.fromJson (canonical j) = Welcome.fromJson j := by
  simp [Welcome.fromJson]

/- The rooms are elements of an array. -/
@[simp] theorem RoomList.fromJson_canonical
    (j : Json) :
    RoomList.fromJson (canonical j) = RoomList.fromJson j := by
  simp [RoomList.fromJson,
    Respects.getList RoomInfo.fromJson_canonical _]

/- The names are, too. -/
@[simp] theorem JoinedRoom.fromJson_canonical
    (j : Json) :
    JoinedRoom.fromJson (canonical j) =
      JoinedRoom.fromJson j := by
  simp [JoinedRoom.fromJson]

/- The seats of the table, and cards. -/
@[simp] theorem GameStateUpdate.fromJson_canonical
    (j : Json) :
    GameStateUpdate.fromJson (canonical j) =
      GameStateUpdate.fromJson j := by
  have hPlayers := Respects.getOr
    (Respects.getList PlayerState.fromJson_canonical)
    "players" [] j
  simp [GameStateUpdate.fromJson, hPlayers]

/- The actions on offer, each a word. -/
@[simp] theorem YourTurn.fromJson_canonical
    (j : Json) :
    YourTurn.fromJson (canonical j) = YourTurn.fromJson j := by
  have hActions : ∀ value : Json,
      (canonical value).getList
          (fun action => .ok (Action.fromJson action)) =
        value.getList
          (fun action => .ok (Action.fromJson action)) :=
    Respects.getList fun action => by simp
  simp [YourTurn.fromJson, hActions]

/- As a player action, with his name. -/
@[simp] theorem ActionEvent.fromJson_canonical
    (j : Json) :
    ActionEvent.fromJson (canonical j) =
      ActionEvent.fromJson j := by
  simp [ActionEvent.fromJson]

/- A code and a text. -/
@[simp] theorem Error.fromJson_canonical
    (j : Json) :
    Error.fromJson (canonical j) = Error.fromJson j := by
  simp [Error.fromJson]

/- Chips that may be absent. -/
@[simp] theorem LeftRoom.fromJson_canonical
    (j : Json) :
    LeftRoom.fromJson (canonical j) = LeftRoom.fromJson j := by
  simp [LeftRoom.fromJson]

/- Names, labels and an amount. -/
@[simp] theorem HandResult.fromJson_canonical
    (j : Json) :
    HandResult.fromJson (canonical j) =
      HandResult.fromJson j := by
  have hLabels := Respects.getOr
    getList_getString_canonical "winner_hand_labels" [] j
  simp [HandResult.fromJson, hLabels]

/- Nor is a server message. -/
theorem ServerMessage.fromJson_respects :
    Respects ServerMessage.fromJson := by
  intro j
  unfold ServerMessage.fromJson
  simp only [atKey_canonical, map_canonical_bind,
    getString_canonical]
  congr 1
  funext value
  congr 1
  funext type
  unfold ServerMessage.fromTyped
  split <;> simp

/- A message is read off the canonical value it is dumped as. -/
theorem ClientMessage.fromJson_canonical
    (msg : ClientMessage) :
    ClientMessage.fromJson (canonical msg.toJson) =
      .ok msg :=
  (ClientMessage.fromJson_respects _).trans
    msg.fromJson_toJson

/- So it is with the answers of the server. -/
theorem ServerMessage.fromJson_canonical
    (msg : ServerMessage) :
    ServerMessage.fromJson (canonical msg.toJson) =
      .ok msg :=
  (ServerMessage.fromJson_respects _).trans
    msg.fromJson_toJson

end Protocol

end Poker

import AsciiPoker.Common.RoundTrip
import Mathlib.Tactic.NormNum

/-
  What a client message that is accepted has to do with the
  JSON it was read from.

  The library converts a number to a word with a cast, and
  reads an enumeration it does not know as its first entry.

  Main declarations:
    * `Json.number?`, `Json.Reduced`
    * `Json.getArithmetic_exact_iff`
    * `ClientMessage.fromJson_eq_ok`
    * `ClientMessage.integersExact_iff`
    * `PlayerAction.actionWord_iff`
-/

------------------------------------------------------------
-- Numbers
------------------------------------------------------------

namespace Poker

namespace Json

/- The number that a value is. -/
def number? : Json → Option Rat
| .unsigned value => some value.toNat
| .integer value => some value
| .float value => some value
| _ => none

/- A whole number from 0 on that has no more bits. -/
def FitsWord
    (bits : Nat)
    (q : Rat) : Prop :=
  ∃ n : Nat, n < 2 ^ bits ∧ q = n

/-
  A value that is read as a word without being its number:
  a Boolean, or a number that does not fit.
-/
def Reduced
    (bits : Nat)
    (fromBoolean : Bool)
    (j : Json) : Prop :=
  ((∃ value, j = .boolean value) ∧ fromBoolean = true) ∨
    ∃ q ∈ j.number?, ¬ FitsWord bits q

theorem truncate_intCast
    (z : Int) :
    truncate (z : Rat) = z := by
  simp [truncate]

section Word

variable {α : Type}
variable {cast : Int → α}
variable {toNat : α → Nat}
variable {bits : Nat}
variable {fromBoolean : Bool}

/- A number is cut off at its fraction and cast. -/
theorem getArithmetic_of_number
    {j : Json}
    {q : Rat}
    (hNumber : j.number? = some q) :
    j.getArithmetic cast fromBoolean =
      .ok (cast (truncate q)) := by
  cases j with
  | unsigned value =>
      cases hNumber
      have hWhole := truncate_intCast value.toNat
      rw [Int.cast_natCast] at hWhole
      rw [hWhole]
      rfl
  | integer value =>
      cases hNumber
      rw [truncate_intCast]
      rfl
  | float value =>
      cases hNumber
      rfl
  | null => cases hNumber
  | boolean value => cases hNumber
  | string value => cases hNumber
  | array elements => cases hNumber
  | object members => cases hNumber

/- The cast of a number is the number when that fits. -/
theorem cast_eq_iff
    (hCast : ∀ z, (toNat (cast z) : Int) = z % 2 ^ bits)
    (q : Rat) :
    q = toNat (cast (truncate q)) ↔ FitsWord bits q := by
  have hPos : (0 : Int) < 2 ^ bits := by positivity
  constructor
  · intro hEq
    refine ⟨toNat (cast (truncate q)), ?_, hEq⟩
    have hLt := Int.emod_lt_of_pos (truncate q) hPos
    rw [← hCast] at hLt
    exact_mod_cast hLt
  · rintro ⟨n, hLt, rfl⟩
    have hWhole : truncate (n : Rat) = n := by
      exact_mod_cast truncate_intCast n
    have hResidue : (n : Int) % 2 ^ bits = n :=
      Int.emod_eq_of_lt (by omega) (by exact_mod_cast hLt)
    have hSame := hCast n
    rw [hResidue] at hSame
    rw [hWhole]
    exact_mod_cast hSame.symm

/- A value is read exactly when it is not reduced. -/
theorem getArithmetic_exact_iff
    (hCast : ∀ z, (toNat (cast z) : Int) = z % 2 ^ bits)
    (j : Json) :
    (∀ a, j.getArithmetic cast fromBoolean = .ok a →
      j.number? = some (toNat a : Rat)) ↔
        ¬ j.Reduced bits fromBoolean := by
  cases hNumber : j.number? with
  | some q =>
      have hNotBoolean : ¬ ∃ value, j = .boolean value := by
        rintro ⟨value, rfl⟩
        cases hNumber
      rw [getArithmetic_of_number hNumber]
      unfold Reduced
      simp only [Except.ok.injEq, forall_eq', Option.some.injEq,
        hNumber, hNotBoolean, false_and, false_or,
        Option.mem_some_iff, exists_eq_left', not_not]
      exact cast_eq_iff hCast q
  | none =>
      unfold Reduced
      simp only [hNumber, reduceCtorEq, Option.not_mem_none,
        false_and, exists_false, or_false, imp_false]
      cases j with
      | boolean value =>
          cases fromBoolean <;> simp [getArithmetic]
      | unsigned value => cases hNumber
      | integer value => cases hNumber
      | float value => cases hNumber
      | null => simp [getArithmetic]
      | string value => simp [getArithmetic]
      | array elements => simp [getArithmetic]
      | object members => simp [getArithmetic]

/- What is reduced is read, as something else. -/
theorem Reduced.misread
    (hCast : ∀ z, (toNat (cast z) : Int) = z % 2 ^ bits)
    {j : Json}
    (hReduced : j.Reduced bits fromBoolean) :
    ∃ a, j.getArithmetic cast fromBoolean = .ok a ∧
      j.number? ≠ some (toNat a : Rat) := by
  by_contra hNone
  refine (getArithmetic_exact_iff hCast j).mp ?_ hReduced
  intro a hRead
  by_contra hWrong
  exact hNone ⟨a, hRead, hWrong⟩

end Word

theorem getString_eq_ok
    {j : Json}
    {value : String} :
    j.getString = .ok value ↔ j = .string value := by
  cases j with
  | string other => simp [getString]
  | null => simp [getString]
  | boolean b => simp [getString]
  | integer n => simp [getString]
  | unsigned n => simp [getString]
  | float q => simp [getString]
  | array es => simp [getString]
  | object ms => simp [getString]

end Json

------------------------------------------------------------
-- Accepted Messages
------------------------------------------------------------

namespace Protocol

open Poker.Json

namespace PlayerAction

/- An `amount` that does not make the decoding fail. -/
def AmountReadable
    (data : Json) : Prop :=
  ∀ value ∈ data.find? "amount",
    value = .null ∨ value.number?.isSome ∨
      ∃ b, value = .boolean b

theorem amountFromJson_eq_ok
    {data : Json}
    {amount : Option UInt32} :
    amountFromJson data = .ok amount ↔
      (data.find? "amount" = none ∧ amount = none) ∨
      (data.find? "amount" = some .null ∧ amount = none) ∨
      ∃ value total,
        data.find? "amount" = some value ∧
          value.getUInt32 = .ok total ∧
          amount = some total := by
  unfold amountFromJson
  cases hFind : data.find? "amount" with
  | none =>
      simp only [Except.ok.injEq, reduceCtorEq, false_and,
        exists_false, or_false, true_and]
      exact eq_comm
  | some value =>
      by_cases hNull : value = .null
      · subst hNull
        have hUnread : ∀ total : UInt32,
            Json.null.getUInt32 ≠ .ok total := by
          intro total hRead
          cases hRead
        simp only [isNull, if_true, Except.ok.injEq,
          reduceCtorEq, false_and, true_and, Option.some.injEq,
          exists_and_left, exists_eq_left', hUnread,
          exists_const, or_false, false_or]
        exact eq_comm
      · have hValue : ¬ value.isNull = true := by
          intro hIsNull
          cases value <;> simp_all [isNull]
        simp only [hValue, if_false, Except.map_eq_ok,
          reduceCtorEq, false_and, Option.some.injEq, hNull,
          exists_and_left, exists_eq_left', false_or]
        constructor
        · rintro ⟨total, hRead, rfl⟩
          exact ⟨total, hRead, rfl⟩
        · rintro ⟨total, hRead, rfl⟩
          exact ⟨total, hRead, rfl⟩

theorem fromJson_eq_ok
    {data : Json}
    {msg : PlayerAction} :
    fromJson data = .ok msg ↔
      ∃ word, data.find? "action" = some word ∧
        msg.action = Action.fromJson word ∧
        amountFromJson data = .ok msg.amount := by
  unfold fromJson
  constructor
  · intro hOk
    rcases Except.bind_eq_ok.mp hOk with ⟨word, hWord, hRest⟩
    rcases Except.bind_eq_ok.mp hRest with
      ⟨amount, hAmount, hEnd⟩
    cases hEnd
    exact ⟨word, atKey_eq_ok.mp hWord, rfl, hAmount⟩
  · rintro ⟨word, hWord, hAction, hAmount⟩
    rw [atKey_of_find? hWord, hAmount, Except.ok_bind,
      Except.ok_bind, ← hAction]

end PlayerAction

theorem CreateRoom.fromJson_eq_ok
    {data : Json}
    {msg : CreateRoom} :
    CreateRoom.fromJson data = .ok msg ↔
      data.find? "room_name" = some (.string msg.roomName) ∧
        ∃ value, data.find? "max_players" = some value ∧
          value.getUInt8 = .ok msg.maxPlayers := by
  unfold CreateRoom.fromJson
  constructor
  · intro hOk
    rcases Except.bind_eq_ok.mp hOk with ⟨name, hName, hRest⟩
    rcases Except.bind_eq_ok.mp hRest with ⟨text, hText, hRest⟩
    rcases Except.bind_eq_ok.mp hRest with
      ⟨value, hValue, hRest⟩
    rcases Except.bind_eq_ok.mp hRest with ⟨players, hRead, hEnd⟩
    cases hEnd
    rw [getString_eq_ok] at hText
    subst hText
    exact ⟨atKey_eq_ok.mp hName, value, atKey_eq_ok.mp hValue,
      hRead⟩
  · rintro ⟨hName, value, hValue, hRead⟩
    rw [atKey_of_find? hName, atKey_of_find? hValue]
    simp [hRead]

theorem JoinRoom.fromJson_eq_ok
    {data : Json}
    {msg : JoinRoom} :
    JoinRoom.fromJson data = .ok msg ↔
      ∃ value, data.find? "room_id" = some value ∧
        value.getUInt64 = .ok msg.roomId := by
  unfold JoinRoom.fromJson
  constructor
  · intro hOk
    rcases Except.bind_eq_ok.mp hOk with ⟨value, hValue, hRest⟩
    rcases Except.bind_eq_ok.mp hRest with ⟨roomId, hRead, hEnd⟩
    cases hEnd
    exact ⟨value, atKey_eq_ok.mp hValue, hRead⟩
  · rintro ⟨value, hValue, hRead⟩
    rw [atKey_of_find? hValue]
    simp [hRead]

namespace ClientMessage

/- The message as its own decoder reads it. -/
def ReadFrom
    (data : Json) : ClientMessage → Prop
| .login msg => Login.fromJson data = .ok msg
| .createRoom msg => CreateRoom.fromJson data = .ok msg
| .joinRoom msg => JoinRoom.fromJson data = .ok msg
| .leaveRoom => True
| .listRooms => True
| .startGame => True
| .playerAction msg => PlayerAction.fromJson data = .ok msg

/- A message is read from its own data, under its own tag. -/
theorem fromTyped_eq_ok
    {type : String}
    {j : Json}
    {msg : ClientMessage} :
    fromTyped type j = .ok msg ↔
      type = msg.type ∧
        ∃ data, j.find? "data" = some data ∧
          msg.ReadFrom data := by
  constructor
  · intro hOk
    unfold fromTyped at hOk
    split at hOk
    · rcases Except.bind_eq_ok.mp hOk with ⟨data, hData, hOk⟩
      rcases Except.bind_eq_ok.mp hOk with ⟨m, hRead, hEnd⟩
      cases hEnd
      exact ⟨rfl, data, atKey_eq_ok.mp hData, hRead⟩
    · rcases Except.bind_eq_ok.mp hOk with ⟨data, hData, hOk⟩
      rcases Except.bind_eq_ok.mp hOk with ⟨m, hRead, hEnd⟩
      cases hEnd
      exact ⟨rfl, data, atKey_eq_ok.mp hData, hRead⟩
    · rcases Except.bind_eq_ok.mp hOk with ⟨data, hData, hOk⟩
      rcases Except.bind_eq_ok.mp hOk with ⟨m, hRead, hEnd⟩
      cases hEnd
      exact ⟨rfl, data, atKey_eq_ok.mp hData, hRead⟩
    · rcases Except.bind_eq_ok.mp hOk with ⟨data, hData, hEnd⟩
      cases hEnd
      exact ⟨rfl, data, atKey_eq_ok.mp hData, trivial⟩
    · rcases Except.bind_eq_ok.mp hOk with ⟨data, hData, hEnd⟩
      cases hEnd
      exact ⟨rfl, data, atKey_eq_ok.mp hData, trivial⟩
    · rcases Except.bind_eq_ok.mp hOk with ⟨data, hData, hEnd⟩
      cases hEnd
      exact ⟨rfl, data, atKey_eq_ok.mp hData, trivial⟩
    · rcases Except.bind_eq_ok.mp hOk with ⟨data, hData, hOk⟩
      rcases Except.bind_eq_ok.mp hOk with ⟨m, hRead, hEnd⟩
      cases hEnd
      exact ⟨rfl, data, atKey_eq_ok.mp hData, hRead⟩
    · cases hOk
  · rintro ⟨rfl, data, hData, hRead⟩
    have hAt := atKey_of_find? hData
    cases msg with
    | login m =>
        have hMsg : Login.fromJson data = .ok m := hRead
        simp [fromTyped, type, hAt, hMsg]
    | createRoom m =>
        have hMsg : CreateRoom.fromJson data = .ok m := hRead
        simp [fromTyped, type, hAt, hMsg]
    | joinRoom m =>
        have hMsg : JoinRoom.fromJson data = .ok m := hRead
        simp [fromTyped, type, hAt, hMsg]
    | leaveRoom => simp [fromTyped, type, hAt]
    | listRooms => simp [fromTyped, type, hAt]
    | startGame => simp [fromTyped, type, hAt]
    | playerAction m =>
        have hMsg : PlayerAction.fromJson data = .ok m := hRead
        simp [fromTyped, type, hAt, hMsg]

theorem fromJson_eq_ok
    {j : Json}
    {msg : ClientMessage} :
    fromJson j = .ok msg ↔
      j.find? "type" = some (.string msg.type) ∧
        ∃ data, j.find? "data" = some data ∧
          msg.ReadFrom data := by
  unfold fromJson
  constructor
  · intro hOk
    rcases Except.bind_eq_ok.mp hOk with ⟨tag, hTag, hRest⟩
    rcases Except.bind_eq_ok.mp hRest with ⟨text, hText, hEnd⟩
    rcases fromTyped_eq_ok.mp hEnd with ⟨rfl, hData⟩
    rw [getString_eq_ok] at hText
    rw [hText] at hTag
    exact ⟨atKey_eq_ok.mp hTag, hData⟩
  · rintro ⟨hTag, hData⟩
    rw [atKey_of_find? hTag, Except.ok_bind, getString_string,
      Except.ok_bind]
    exact fromTyped_eq_ok.mpr ⟨rfl, hData⟩

------------------------------------------------------------
-- Integers
------------------------------------------------------------

/- The number that a member is, if there is one. -/
def memberNumber
    (key : String)
    (data : Json) : Option Rat :=
  (data.find? key).bind number?

/- Every integer of the message is the number in its JSON. -/
def IntegersExact
    (data : Json) : ClientMessage → Prop
| .createRoom msg =>
    memberNumber "max_players" data =
      some (msg.maxPlayers.toNat : Rat)
| .joinRoom msg =>
    memberNumber "room_id" data =
      some (msg.roomId.toNat : Rat)
| .playerAction msg =>
    ∀ amount ∈ msg.amount,
      memberNumber "amount" data = some (amount.toNat : Rat)
| .login _ => True
| .leaveRoom => True
| .listRooms => True
| .startGame => True

/-
  A message without another fault has a Boolean or a number
  that does not fit where an integer is read.
-/
def IntegerReduced
    (type : String)
    (data : Json) : Prop :=
  (type = "create_room" ∧
    (∃ name, data.find? "room_name" = some (.string name)) ∧
    ∃ value ∈ data.find? "max_players",
      value.Reduced 8 true) ∨
  (type = "join_room" ∧
    ∃ value ∈ data.find? "room_id", value.Reduced 64 false) ∨
  (type = "player_action" ∧
    (data.find? "action").isSome ∧
    ∃ value ∈ data.find? "amount", value.Reduced 32 true)

/- One of the integers is read as another number. -/
theorem misread_of_integerReduced
    {type : String}
    {data : Json}
    (hReduced : IntegerReduced type data) :
    ∃ msg : ClientMessage, msg.type = type ∧
      msg.ReadFrom data ∧ ¬ msg.IntegersExact data := by
  rcases hReduced with
    ⟨rfl, ⟨name, hName⟩, value, hValue, hReduced⟩ |
    ⟨rfl, value, hValue, hReduced⟩ |
    ⟨rfl, hAction, value, hValue, hReduced⟩
  · rcases hReduced.misread UInt8.toNat_ofInt with
      ⟨players, hRead, hWrong⟩
    refine ⟨.createRoom ⟨name, players⟩, rfl,
      CreateRoom.fromJson_eq_ok.mpr ⟨hName, value, hValue, hRead⟩,
      ?_⟩
    intro hExact
    unfold IntegersExact memberNumber at hExact
    rw [hValue] at hExact
    exact hWrong hExact
  · rcases hReduced.misread UInt64.toNat_ofInt with
      ⟨roomId, hRead, hWrong⟩
    refine ⟨.joinRoom ⟨roomId⟩, rfl,
      JoinRoom.fromJson_eq_ok.mpr ⟨value, hValue, hRead⟩, ?_⟩
    intro hExact
    unfold IntegersExact memberNumber at hExact
    rw [hValue] at hExact
    exact hWrong hExact
  · rcases hReduced.misread UInt32.toNat_ofInt with
      ⟨total, hRead, hWrong⟩
    rcases Option.isSome_iff_exists.mp hAction with
      ⟨word, hWord⟩
    have hAmount : PlayerAction.amountFromJson data =
        .ok (some total) :=
      PlayerAction.amountFromJson_eq_ok.mpr
        (Or.inr (Or.inr ⟨value, total, hValue, hRead, rfl⟩))
    refine ⟨.playerAction ⟨Action.fromJson word, some total⟩,
      rfl, PlayerAction.fromJson_eq_ok.mpr
        ⟨word, hWord, rfl, hAmount⟩, ?_⟩
    intro hExact
    have hTotal := hExact total rfl
    unfold memberNumber at hTotal
    rw [hValue] at hTotal
    exact hWrong hTotal

/- Where no integer is reduced, all of them are exact. -/
theorem integersExact_of_not_reduced
    {data : Json}
    {msg : ClientMessage}
    (hRead : msg.ReadFrom data)
    (hNot : ¬ IntegerReduced msg.type data) :
    msg.IntegersExact data := by
  cases msg with
  | createRoom msg =>
      rcases CreateRoom.fromJson_eq_ok.mp hRead with
        ⟨hName, value, hValue, hPlayers⟩
      have hFits : ¬ value.Reduced 8 true := fun hReduced =>
        hNot (Or.inl ⟨rfl, ⟨_, hName⟩, value, hValue, hReduced⟩)
      unfold IntegersExact memberNumber
      rw [hValue]
      exact (getArithmetic_exact_iff UInt8.toNat_ofInt _).mpr
        hFits _ hPlayers
  | joinRoom msg =>
      rcases JoinRoom.fromJson_eq_ok.mp hRead with
        ⟨value, hValue, hRoom⟩
      have hFits : ¬ value.Reduced 64 false := fun hReduced =>
        hNot (Or.inr (Or.inl ⟨rfl, value, hValue, hReduced⟩))
      unfold IntegersExact memberNumber
      rw [hValue]
      exact (getArithmetic_exact_iff UInt64.toNat_ofInt _).mpr
        hFits _ hRoom
  | playerAction msg =>
      intro amount hAmount
      rcases PlayerAction.fromJson_eq_ok.mp hRead with
        ⟨word, hWord, _, hMsg⟩
      rcases PlayerAction.amountFromJson_eq_ok.mp hMsg with
        ⟨_, hNone⟩ | ⟨_, hNone⟩ |
        ⟨value, total, hValue, hTotal, hSome⟩
      · rw [hNone] at hAmount
        cases hAmount
      · rw [hNone] at hAmount
        cases hAmount
      · rw [hSome] at hAmount
        cases hAmount
        have hFits : ¬ value.Reduced 32 true := fun hReduced =>
          hNot (Or.inr (Or.inr
            ⟨rfl, by simp [hWord], value, hValue, hReduced⟩))
        unfold memberNumber
        rw [hValue]
        exact (getArithmetic_exact_iff UInt32.toNat_ofInt _).mpr
          hFits _ hTotal
  | login msg => trivial
  | leaveRoom => trivial
  | listRooms => trivial
  | startGame => trivial

/-
  The integers of an accepted message are the numbers in its
  JSON, unless one of them was reduced to its word.
-/
theorem integersExact_iff
    (j : Json) :
    (∀ msg, fromJson j = .ok msg →
      ∃ data, j.find? "data" = some data ∧
        msg.IntegersExact data) ↔
      ¬ ∃ type data,
        j.find? "type" = some (.string type) ∧
          j.find? "data" = some data ∧
          IntegerReduced type data := by
  constructor
  · rintro hAll ⟨type, data, hType, hData, hReduced⟩
    rcases misread_of_integerReduced hReduced with
      ⟨msg, rfl, hRead, hWrong⟩
    have hOk : fromJson j = .ok msg :=
      fromJson_eq_ok.mpr ⟨hType, data, hData, hRead⟩
    rcases hAll msg hOk with ⟨found, hFound, hExact⟩
    rw [hData] at hFound
    cases hFound
    exact hWrong hExact
  · intro hNone msg hOk
    rcases fromJson_eq_ok.mp hOk with
      ⟨hType, data, hData, hRead⟩
    refine ⟨data, hData, integersExact_of_not_reduced hRead ?_⟩
    intro hReduced
    exact hNone ⟨msg.type, data, hType, hData, hReduced⟩

/- A room for 258 players is read as one for 2. -/
theorem maxPlayers_reduced :
    ¬ ∀ j msg, fromJson j = .ok msg →
      ∃ data, j.find? "data" = some data ∧
        msg.IntegersExact data := by
  intro hAll
  let data := Json.object
    [("room_name", .string "r"), ("max_players", .unsigned 258)]
  have hOk : fromJson (.object
      [("type", .string "create_room"), ("data", data)]) =
      .ok (.createRoom ⟨"r", 2⟩) := by
    rfl
  rcases hAll _ _ hOk with ⟨found, hFound, hExact⟩
  have hSame : found = data := by
    simpa [eq_comm] using hFound
  rw [hSame] at hExact
  simp [IntegersExact, memberNumber, data, number?] at hExact

end ClientMessage

------------------------------------------------------------
-- Actions
------------------------------------------------------------

namespace PlayerAction

/- What is decoded but names none of the four actions. -/
def Misnamed
    (data : Json) : Prop :=
  (∃ word, data.find? "action" = some word ∧
    ∀ action : Action, word ≠ action.toJson) ∧
  AmountReadable data

/- A value encodes the action it is read as, or no action. -/
theorem toJson_fromJson_iff
    {word : Json} :
    (Action.fromJson word).toJson = word ↔
      ∃ action : Action, word = action.toJson := by
  constructor
  · intro hEq
    exact ⟨_, hEq.symm⟩
  · rintro ⟨action, rfl⟩
    rw [Action.fromJson_toJson]

/- A word is read from every number and every Boolean. -/
theorem getUInt32_isOk_iff
    {value : Json} :
    (∃ total, value.getUInt32 = .ok total) ↔
      value.number?.isSome ∨ ∃ b, value = .boolean b := by
  unfold getUInt32
  cases hNumber : value.number? with
  | some q =>
      rw [getArithmetic_of_number hNumber]
      simp
  | none =>
      cases value with
      | boolean b => simp [getArithmetic]
      | null => simp [getArithmetic]
      | string t => simp [getArithmetic]
      | array es => simp [getArithmetic]
      | object ms => simp [getArithmetic]
      | unsigned n => cases hNumber
      | integer n => cases hNumber
      | float q => cases hNumber

theorem amountReadable_iff
    {data : Json} :
    AmountReadable data ↔
      ∃ amount, amountFromJson data = .ok amount := by
  simp only [amountFromJson_eq_ok]
  unfold AmountReadable
  constructor
  · intro hReadable
    cases hFind : data.find? "amount" with
    | none => exact ⟨none, Or.inl ⟨rfl, rfl⟩⟩
    | some value =>
        rcases hReadable value hFind with rfl | hWord
        · exact ⟨none, Or.inr (Or.inl ⟨rfl, rfl⟩)⟩
        · rcases getUInt32_isOk_iff.mpr hWord with
            ⟨total, hTotal⟩
          exact ⟨some total, Or.inr (Or.inr
            ⟨value, total, rfl, hTotal, rfl⟩)⟩
  · rintro ⟨amount, ⟨hNone, _⟩ | ⟨hNull, _⟩ |
      ⟨found, total, hFound, hTotal, _⟩⟩ value hValue
    · rw [hNone] at hValue
      cases hValue
    · rw [hNull] at hValue
      cases hValue
      exact Or.inl rfl
    · rw [hFound] at hValue
      cases hValue
      exact Or.inr (getUInt32_isOk_iff.mp ⟨total, hTotal⟩)

/- An action is the one its JSON names, or it is misnamed. -/
theorem namesAction_iff
    (data : Json) :
    (∀ msg, fromJson data = .ok msg →
      data.find? "action" = some msg.action.toJson) ↔
      ¬ Misnamed data := by
  constructor
  · rintro hAll ⟨⟨word, hWord, hOther⟩, hReadable⟩
    rcases amountReadable_iff.mp hReadable with
      ⟨amount, hAmount⟩
    have hOk : fromJson data =
        .ok ⟨Action.fromJson word, amount⟩ :=
      fromJson_eq_ok.mpr ⟨word, hWord, rfl, hAmount⟩
    have hNamed := hAll _ hOk
    rw [hWord] at hNamed
    exact hOther _ (Option.some.inj hNamed)
  · intro hNot msg hOk
    rcases fromJson_eq_ok.mp hOk with
      ⟨word, hWord, hAction, hAmount⟩
    rw [hWord, hAction, Option.some.injEq, eq_comm,
      toJson_fromJson_iff]
    by_contra hOther
    exact hNot ⟨⟨word, hWord, by simpa using hOther⟩,
      amountReadable_iff.mpr ⟨_, hAmount⟩⟩

/-
  Alone or in a client message, what is accepted as an
  action names it, unless the value named none of the four.
-/
theorem actionWord_iff
    (j : Json) :
    ((∀ msg, fromJson j = .ok msg →
        j.find? "action" = some msg.action.toJson) ↔
      ¬ Misnamed j) ∧
    ((∀ msg, ClientMessage.fromJson j =
          .ok (.playerAction msg) →
        ∃ data, j.find? "data" = some data ∧
          data.find? "action" = some msg.action.toJson) ↔
      ¬ ∃ data,
        j.find? "type" = some (.string "player_action") ∧
          j.find? "data" = some data ∧ Misnamed data) := by
  refine ⟨namesAction_iff j, ?_⟩
  constructor
  · rintro hAll ⟨data, hType, hData, hMisnamed⟩
    refine (namesAction_iff data).mp ?_ hMisnamed
    intro msg hOk
    rcases hAll msg (ClientMessage.fromJson_eq_ok.mpr
        ⟨hType, data, hData, hOk⟩) with
      ⟨found, hFound, hNamed⟩
    rw [hData] at hFound
    cases hFound
    exact hNamed
  · intro hNone msg hOk
    rcases ClientMessage.fromJson_eq_ok.mp hOk with
      ⟨hType, data, hData, hRead⟩
    refine ⟨data, hData, (namesAction_iff data).mpr ?_ msg hRead⟩
    intro hMisnamed
    exact hNone ⟨data, hType, hData, hMisnamed⟩

/- A word in capitals is read as a fold. -/
theorem capitals_fold :
    ¬ ∀ j msg,
      ClientMessage.fromJson j = .ok (.playerAction msg) →
        ∃ data, j.find? "data" = some data ∧
          data.find? "action" = some msg.action.toJson := by
  intro hAll
  let data := Json.object [("action", .string "RAISE")]
  have hOk : ClientMessage.fromJson (.object
      [("type", .string "player_action"), ("data", data)]) =
      .ok (.playerAction ⟨.fold, none⟩) := by
    rfl
  rcases hAll _ _ hOk with ⟨found, hFound, hNamed⟩
  have hSame : found = data := by
    simpa [eq_comm] using hFound
  rw [hSame] at hNamed
  simp [data, Action.toJson] at hNamed

end PlayerAction

end Protocol

end Poker

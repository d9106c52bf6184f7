import Mathlib.Data.List.Sort
import Mathlib.Data.Rat.Defs
import Mathlib.Data.String.Basic

/-
  JSON values as `nlohmann::json` holds them, and the ways
  in which they are read.

  A value that is read as what it is not throws; the error
  carries the text that `what` answers.  A number keeps the
  kind it was parsed as: an integer from 0 on is unsigned,
  one below 0 is signed, and any other number is a double,
  which is a rational.

  Main declarations:
    * `Json`
    * `Json.atKey`, `Json.getOr`, `Json.items`
    * `Json.getString`, `Json.getBoolean`, `Json.getList`,
      `Json.getArithmetic`
-/

------------------------------------------------------------
-- Values
------------------------------------------------------------

namespace Poker

inductive Json
  | null
  | boolean (value : Bool)
  | integer (value : Int)
  | unsigned (value : UInt64)
  | float (value : Rat)
  | string (value : String)
  | array (elements : List Json)
  | object (members : List (String × Json))

namespace Json

/- `type_name`. -/
def typeName : Json → String
| .null => "null"
| .object _ => "object"
| .array _ => "array"
| .string _ => "string"
| .boolean _ => "boolean"
| .integer _ => "number"
| .unsigned _ => "number"
| .float _ => "number"

------------------------------------------------------------
-- Errors
------------------------------------------------------------

/- `type_error.302`: the value is not of the type read. -/
def wrongType
    (expected : String)
    (j : Json) : String :=
  "[json.exception.type_error.302] type must be " ++
    expected ++ ", but is " ++ j.typeName

/- `type_error.304`: only objects have members. -/
def notAnObject
    (j : Json) : String :=
  "[json.exception.type_error.304] cannot use at() with " ++
    j.typeName

/- `out_of_range.403`: the object has no such member. -/
def keyNotFound
    (key : String) : String :=
  "[json.exception.out_of_range.403] key '" ++ key ++
    "' not found"

------------------------------------------------------------
-- Reading
------------------------------------------------------------

/-
  The member of an object with a key, if it has one.  The
  source asks `contains(key)` first and takes it then.
-/
def find?
    (key : String) : Json → Option Json
| .object members => (members.find? (·.1 = key)).map (·.2)
| _ => none

/- `at(key)`. -/
def atKey
    (key : String)
    (j : Json) : Except String Json :=
  match j with
  | .object _ =>
      match j.find? key with
      | some value => .ok value
      | none => .error (keyNotFound key)
  | _ => .error j.notAnObject

/- `is_null()`. -/
def isNull : Json → Bool
| .null => true
| _ => false

/- `get<std::string>()`. -/
def getString : Json → Except String String
| .string value => .ok value
| j => .error (wrongType "string" j)

/- A double without its fraction. -/
def truncate
    (value : Rat) : Int :=
  value.num.tdiv value.den

/-
  `get<T>()` of an arithmetic type, where `cast` is the
  `static_cast` to it.  A double out of the range of `T` has
  no defined cast; here it is reduced like an integer.  Only
  the types that are not one of the library's own number
  types are read from a Boolean as well.
-/
def getArithmetic
    {α : Type}
    (cast : Int → α)
    (fromBoolean : Bool) : Json → Except String α
| .unsigned value => .ok (cast value.toNat)
| .integer value => .ok (cast value)
| .float value => .ok (cast (truncate value))
| .boolean value =>
    if fromBoolean then
      .ok (cast (if value then 1 else 0))
    else
      .error (wrongType "number" (.boolean value))
| j => .error (wrongType "number" j)

/- `get<uint8_t>()`. -/
def getUInt8 : Json → Except String UInt8 :=
  getArithmetic UInt8.ofInt true

/- `get<uint32_t>()`. -/
def getUInt32 : Json → Except String UInt32 :=
  getArithmetic UInt32.ofInt true

/- `get<uint64_t>()`. -/
def getUInt64 : Json → Except String UInt64 :=
  getArithmetic UInt64.ofInt false

/- `get<int>()`. -/
def getInt32 : Json → Except String Int32 :=
  getArithmetic Int32.ofInt true

/- `get<bool>()`. -/
def getBoolean : Json → Except String Bool
| .boolean value => .ok value
| j => .error (wrongType "boolean" j)

/- `get<std::vector<T>>()`, with `get<T>()` given. -/
def getList
    {α : Type}
    (get : Json → Except String α) : Json →
      Except String (List α)
| .array elements => elements.mapM get
| j => .error (wrongType "array" j)

/-
  What `for (const auto& item : j)` goes through: the values
  of an object in the order of their keys, while a value
  that is no container is its own only item.
-/
def items : Json → List Json
| .array elements => elements
| .object members =>
    (members.insertionSort fun a b => a.1 ≤ b.1).map (·.2)
| .null => []
| j => [j]

/- A member that may be missing and then has a default. -/
def getOr
    {α : Type}
    (key : String)
    (get : Json → Except String α)
    (default : α)
    (j : Json) : Except String α :=
  match j.find? key with
  | some value => get value
  | none => .ok default

------------------------------------------------------------
-- Members of Objects
------------------------------------------------------------

@[simp] theorem find?_object_nil
    (key : String) :
    (object []).find? key = none := rfl

@[simp] theorem find?_object_cons
    (key other : String)
    (value : Json)
    (members : List (String × Json)) :
    (object ((other, value) :: members)).find? key =
      if other = key then
        some value
      else
        (object members).find? key := by
  by_cases hEq : other = key
  · simp [find?, hEq]
  · simp [find?, hEq]

theorem atKey_eq_ok
    {key : String}
    {j value : Json} :
    j.atKey key = .ok value ↔ j.find? key = some value := by
  unfold atKey
  cases j with
  | object members =>
      cases (object members).find? key with
      | none => simp
      | some found => simp
  | null => simp [find?]
  | boolean b => simp [find?]
  | integer n => simp [find?]
  | unsigned n => simp [find?]
  | float q => simp [find?]
  | string s => simp [find?]
  | array es => simp [find?]

/- What is found is what `at` returns. -/
theorem atKey_of_find?
    {key : String}
    {j value : Json}
    (hFind : j.find? key = some value) :
    j.atKey key = .ok value :=
  atKey_eq_ok.mpr hFind

end Json

end Poker

import AsciiPoker.Common.Encoding
import Mathlib.Algebra.Order.BigOperators.Group.List
import Mathlib.Data.List.Sort
import Mathlib.Data.Nat.Digits.Defs
import Mathlib.Data.String.Basic

/-
  The text of a JSON value and its length (`json.hpp`:
  `dump()` without indentation, without `ensure_ascii`).

  An object is written with its keys in order; no two of
  them are the same.  How a double is written is left open:
  no message of the server has one.

  Main declarations:
    * `Json.escaped`, `Json.dump`
    * `Json.size`, `Json.size_array`, `Json.size_object`
    * `Json.escapedSize_le`
-/

------------------------------------------------------------
-- Text
------------------------------------------------------------

namespace Poker

namespace Json

/- What `dump_escaped` writes for one character. -/
def escapeChar
    (c : Char) : List Char :=
  match c.toNat with
  | 0x08 => ['\\', 'b']
  | 0x09 => ['\\', 't']
  | 0x0A => ['\\', 'n']
  | 0x0C => ['\\', 'f']
  | 0x0D => ['\\', 'r']
  | 0x22 => ['\\', '"']
  | 0x5C => ['\\', '\\']
  | n =>
      if n ≤ 0x1F then
        ['\\', 'u', '0', '0', Nat.digitChar (n / 16),
          Nat.digitChar (n % 16)]
      else
        [c]

/- `dump_escaped`. -/
def escaped
    (s : String) : List Char :=
  s.toList.flatMap escapeChar

/- A string in quotation marks. -/
def quoted
    (s : String) : List Char :=
  ['"'] ++ escaped s ++ ['"']

/- Parts with commas between them. -/
def commas
    (parts : List (List Char)) : List Char :=
  [','].intercalate parts

/- The members of an object, in the order of their keys. -/
def sorted
    (members : List (String × List Char)) :
    List (String × List Char) :=
  members.insertionSort fun a b => a.1 ≤ b.1

/- A key with its value. -/
def member
    (entry : String × List Char) : List Char :=
  quoted entry.1 ++ [':'] ++ entry.2

mutual

/- `dump`. -/
def dump
    (dumpFloat : Rat → List Char) : Json → List Char
| .null => ['n', 'u', 'l', 'l']
| .boolean true => ['t', 'r', 'u', 'e']
| .boolean false => ['f', 'a', 'l', 's', 'e']
| .integer value => (toString value).toList
| .unsigned value => Nat.toDigits 10 value.toNat
| .float value => dumpFloat value
| .string value => quoted value
| .array elements =>
    ['['] ++ commas (dumpElements dumpFloat elements) ++ [']']
| .object members =>
    ['\x7b'] ++
      commas ((sorted (dumpMembers dumpFloat members)).map
        member) ++
      ['\x7d']

def dumpElements
    (dumpFloat : Rat → List Char) :
    List Json → List (List Char)
| [] => []
| value :: values =>
    dump dumpFloat value :: dumpElements dumpFloat values

def dumpMembers
    (dumpFloat : Rat → List Char) :
    List (String × Json) → List (String × List Char)
| [] => []
| entry :: entries =>
    dumpMember dumpFloat entry ::
      dumpMembers dumpFloat entries

def dumpMember
    (dumpFloat : Rat → List Char) :
    String × Json → String × List Char
| (key, value) => (key, dump dumpFloat value)

end

example :
    String.ofList (dump (fun _ => [])
      (Protocol.JoinRoom.toJson ⟨7⟩)) =
        "\x7b\"room_id\":7\x7d" := by
  decide +kernel

------------------------------------------------------------
-- Lengths
------------------------------------------------------------

/- The bytes of the text of a value. -/
def size
    (dumpFloat : Rat → List Char)
    (j : Json) : Nat :=
  String.utf8Len (j.dump dumpFloat)

/- The bytes of a string as it is written. -/
def escapedSize
    (s : String) : Nat :=
  String.utf8Len (escaped s)

/- The digits of a number. -/
def digits
    (n : Nat) : Nat :=
  (Nat.toDigits 10 n).length

variable {dumpFloat : Rat → List Char}

/- The parts and a comma between each two of them. -/
theorem utf8Len_commas
    (parts : List (List Char)) :
    String.utf8Len (commas parts) =
      (parts.map String.utf8Len).sum + (parts.length - 1) := by
  unfold commas
  induction parts with
  | nil => rfl
  | cons part parts ih =>
      cases parts with
      | nil => simp [List.intercalate_singleton]
      | cons next rest =>
          rw [List.intercalate_cons_cons, String.utf8Len_append,
            String.utf8Len_append, ih]
          have hComma : String.utf8Len [','] = 1 := by
            decide
          simp only [List.map_cons, List.sum_cons,
            List.length_cons, hComma]
          omega

theorem utf8Len_of_ascii
    {cs : List Char}
    (hAscii : ∀ c ∈ cs, c.utf8Size = 1) :
    String.utf8Len cs = cs.length := by
  induction cs with
  | nil => rfl
  | cons c cs ih =>
      rw [String.utf8Len_cons, List.length_cons,
        hAscii c (List.mem_cons_self ..),
        ih fun d hd => hAscii d (List.mem_cons_of_mem _ hd)]

@[simp] theorem size_string
    (s : String) :
    size dumpFloat (.string s) = escapedSize s + 2 := by
  unfold size escapedSize dump quoted
  rw [String.utf8Len_append, String.utf8Len_append]
  have hQuote : String.utf8Len ['"'] = 1 := by
    decide
  omega

@[simp] theorem size_boolean
    (b : Bool) :
    size dumpFloat (.boolean b) = if b then 4 else 5 := by
  cases b with
  | true => rfl
  | false => rfl

@[simp] theorem size_unsigned
    (n : UInt64) :
    size dumpFloat (.unsigned n) = digits n.toNat := by
  unfold size dump digits
  apply utf8Len_of_ascii
  intro c hMem
  have hDigit := Nat.isDigit_of_mem_toDigits
    (by decide) (by decide) hMem
  unfold Char.isDigit at hDigit
  rw [Bool.and_eq_true, decide_eq_true_eq,
    decide_eq_true_eq] at hDigit
  apply Char.utf8Size_eq_one_iff.mpr
  exact UInt32.le_trans hDigit.2 (by decide)

theorem dumpElements_eq
    (elements : List Json) :
    dumpElements dumpFloat elements =
      elements.map (dump dumpFloat) := by
  induction elements with
  | nil => rfl
  | cons value values ih =>
      rw [dumpElements, ih, List.map_cons]

theorem dumpMembers_eq
    (members : List (String × Json)) :
    dumpMembers dumpFloat members =
      members.map fun m => (m.1, m.2.dump dumpFloat) := by
  induction members with
  | nil => rfl
  | cons entry entries ih =>
      rcases entry with ⟨key, value⟩
      rw [dumpMembers, dumpMember, ih, List.map_cons]

theorem size_array
    (elements : List Json) :
    size dumpFloat (.array elements) =
      (elements.map (size dumpFloat)).sum +
        (elements.length - 1) + 2 := by
  have hBrackets : String.utf8Len ['['] = 1 ∧
      String.utf8Len [']'] = 1 := by
    decide
  have hEach : elements.map (size dumpFloat) =
      (elements.map (dump dumpFloat)).map String.utf8Len := by
    rw [List.map_map]
    rfl
  rw [hEach, size, dump, String.utf8Len_append,
    String.utf8Len_append, utf8Len_commas, dumpElements_eq,
    List.length_map]
  omega

/- The order of the members does not matter for the length. -/
theorem size_object
    (members : List (String × Json)) :
    size dumpFloat (.object members) =
      (members.map fun m =>
        escapedSize m.1 + 3 + size dumpFloat m.2).sum +
          (members.length - 1) + 2 := by
  have hBraces : String.utf8Len ['\x7b'] = 1 ∧
      String.utf8Len ['\x7d'] = 1 := by
    decide
  have hMember : ∀ entry : String × List Char,
      String.utf8Len (member entry) =
        escapedSize entry.1 + 3 + String.utf8Len entry.2 := by
    intro entry
    unfold member quoted escapedSize
    have hMarks : String.utf8Len ['"'] = 1 ∧
        String.utf8Len [':'] = 1 := by
      decide
    simp only [String.utf8Len_append]
    omega
  have hSorted : (sorted (dumpMembers dumpFloat
      members)).Perm (dumpMembers dumpFloat members) :=
    List.perm_insertionSort _ _
  have hEach : (members.map fun m =>
        escapedSize m.1 + 3 + size dumpFloat m.2) =
      (dumpMembers dumpFloat members).map fun entry =>
        String.utf8Len (member entry) := by
    rw [dumpMembers_eq, List.map_map]
    simp only [Function.comp_def, hMember]
    rfl
  rw [hEach, size, dump, String.utf8Len_append,
    String.utf8Len_append, utf8Len_commas, List.map_map,
    (hSorted.map _).sum_eq, List.length_map,
    hSorted.length_eq, dumpMembers_eq, List.length_map,
    Function.comp_def]
  omega

------------------------------------------------------------
-- Bounds
------------------------------------------------------------

theorem digits_le
    {n e : Nat}
    (hPos : 0 < e)
    (hLt : n < 10 ^ e) :
    digits n ≤ e :=
  Nat.toDigits_length 10 n e hPos hLt

/- No character is written with more than six times its bytes. -/
theorem utf8Len_escapeChar_le
    (c : Char) :
    String.utf8Len (escapeChar c) ≤ 6 * c.utf8Size := by
  have hPos := Char.utf8Size_pos c
  have hDigit : ∀ n < 16, (Nat.digitChar n).utf8Size = 1 := by
    decide
  have hShort : ∀ cs ∈ [['\\', 'b'], ['\\', 't'],
      ['\\', 'n'], ['\\', 'f'], ['\\', 'r'], ['\\', '"'],
      ['\\', '\\']], String.utf8Len cs ≤ 6 * c.utf8Size := by
    intro cs hMem
    have hTwo : String.utf8Len cs = 2 := by
      revert cs
      decide
    omega
  unfold escapeChar
  split
  case h_8 =>
    split
    · have hFour : String.utf8Len ['\\', 'u', '0', '0'] = 4 := by
        decide
      have hHigh := hDigit (c.toNat / 16) (by omega)
      have hLow := hDigit (c.toNat % 16)
        (Nat.mod_lt _ (by decide))
      rw [show ['\\', 'u', '0', '0', Nat.digitChar
            (c.toNat / 16), Nat.digitChar (c.toNat % 16)] =
          ['\\', 'u', '0', '0'] ++ [Nat.digitChar
            (c.toNat / 16), Nat.digitChar (c.toNat % 16)]
        from rfl, String.utf8Len_append, hFour]
      simp only [String.utf8Len_cons, String.utf8Len_nil,
        hHigh, hLow]
      omega
    · simp only [String.utf8Len_cons, String.utf8Len_nil]
      omega
  all_goals exact hShort _ (by simp)

/- And so is no string. -/
theorem escapedSize_le
    (s : String) :
    escapedSize s ≤ 6 * s.utf8ByteSize := by
  have hList : ∀ cs : List Char,
      String.utf8Len (cs.flatMap escapeChar) ≤
        6 * String.utf8Len cs := by
    intro cs
    induction cs with
    | nil => exact Nat.le_refl 0
    | cons c cs ih =>
        have hHead := utf8Len_escapeChar_le c
        rw [List.flatMap_cons, String.utf8Len_append,
          String.utf8Len_cons]
        omega
  have hBytes : s.utf8ByteSize = String.utf8Len s.toList := by
    rw [← String.utf8ByteSize_ofList, String.ofList_toList]
  rw [hBytes]
  exact hList s.toList

end Json

end Poker

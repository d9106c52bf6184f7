import AsciiPoker.Common.Dump
import AsciiPoker.Common.Json.Canonical
import AsciiPoker.Common.Json.Completeness

/-
  The text of a value is JSON.

  A value without a double, with integers of 64 bits, is
  written as a JSON text that has the same value, up to the
  order of members and the kind of its integers.

  Main declarations:
    * `Json.Plain`
    * `Json.Plain.derives`
    * `Json.Plain.parse_dump`
-/

namespace Poker

namespace Json

variable {strtod : Strtod}
variable {dumpFloat : Rat → List Char}

open Utf8 (encode encode_append encode_cons)

------------------------------------------------------------
-- Numbers
------------------------------------------------------------

/- A digit is a byte. -/
theorem encode_digitChar
    {d : Nat}
    (hDigit : d < 10) :
    encode [Nat.digitChar d] = [UInt8.ofNat (0x30 + d)] := by
  revert d
  decide

/- And a text of digits. -/
theorem digits_digit
    {d : Nat}
    (hDigit : d < 10) :
    Digits [UInt8.ofNat (0x30 + d)] := by
  have hBoth : 0x30 ≤ UInt8.ofNat (0x30 + d) ∧
      UInt8.ofNat (0x30 + d) ≤ 0x39 := by
    revert d
    decide
  intro b hMem
  rw [List.mem_singleton.mp hMem]
  exact hBoth

/- The last digit counts once, the others ten times more. -/
theorem decimal_append_digit
    {d : Nat}
    (hDigit : d < 10)
    (text : List UInt8) :
    decimal (text ++ [UInt8.ofNat (0x30 + d)]) =
      10 * decimal text + d := by
  have hValue : (UInt8.ofNat (0x30 + d)).toNat - 0x30 = d := by
    rw [UInt8.toNat_ofNat']
    omega
  unfold decimal
  rw [List.reverse_append, List.reverse_singleton,
    List.singleton_append, List.map_cons, Nat.ofDigits_cons,
    hValue, Nat.add_comm]

/- What the digits of a number are as a text. -/
theorem toDigits_spec
    (n : Nat) :
    Digits (encode (Nat.toDigits 10 n)) ∧
      decimal (encode (Nat.toDigits 10 n)) = n ∧
      (0 < n →
        ∃ b ∈ (encode (Nat.toDigits 10 n)).head?,
          b ≠ 0x30) := by
  induction n using Nat.strongRecOn with
  | ind n ih =>
      rw [Nat.toDigits_eq_if (by decide)]
      split
      case isTrue hSmall =>
        rw [encode_digitChar hSmall]
        refine ⟨digits_digit hSmall, ?_, fun hPos => ?_⟩
        · have hDecimal := decimal_append_digit hSmall []
          rw [List.nil_append] at hDecimal
          rw [hDecimal]
          exact Nat.zero_add n
        · refine ⟨_, rfl, ?_⟩
          rw [Ne, ← UInt8.toNat_inj, UInt8.toNat_ofNat']
          simp only [UInt8.reduceToNat]
          omega
      case isFalse hLarge =>
        have hLess : n % 10 < 10 := Nat.mod_lt n (by decide)
        rcases ih (n / 10) (by omega) with
          ⟨hDigits, hDecimal, hHead⟩
        rcases hHead (by omega) with ⟨b, hFirst, hNe⟩
        rw [encode_append, encode_digitChar hLess]
        refine ⟨?_, ?_, fun _ => ⟨b, ?_, hNe⟩⟩
        · exact List.forall_mem_append.mpr
            ⟨hDigits, digits_digit hLess⟩
        · rw [decimal_append_digit hLess, hDecimal]
          omega
        · exact List.mem_head?_append_of_mem_head? hFirst

/- No zero leads, unless it is alone. -/
theorem integral_toDigits
    (n : Nat) :
    Integral (encode (Nat.toDigits 10 n)) := by
  rcases toDigits_spec n with ⟨hDigits, _, hHead⟩
  rcases Nat.eq_zero_or_pos n with rfl | hPos
  · exact .inl (by decide)
  · exact .inr ⟨hDigits, hHead hPos⟩

/- An integer without a sign. -/
theorem numberText_toDigits
    {n : Nat}
    (hRange : n < 2 ^ 64) :
    NumberText strtod (encode (Nat.toDigits 10 n))
      (some (.unsigned (UInt64.ofNat n))) := by
  refine ⟨[], _, [], [], by simp, .inl rfl,
    integral_toDigits n, .inl rfl, .inl rfl, ?_⟩
  unfold numberValue
  rw [(toDigits_spec n).2.1]
  simpa using hRange

/- And one with a sign. -/
theorem numberText_negative
    {n : Nat}
    (hRange : n ≤ 2 ^ 63) :
    NumberText strtod (encode ('-' :: Nat.toDigits 10 n))
      (some (.integer (-n))) := by
  refine ⟨[0x2D], _, [], [], ?_, .inr rfl,
    integral_toDigits n, .inl rfl, .inl rfl, ?_⟩
  · rw [encode_cons, List.append_nil, List.append_nil]
    rfl
  · unfold numberValue
    rw [(toDigits_spec n).2.1]
    simpa using hRange

------------------------------------------------------------
-- Strings
------------------------------------------------------------

/- The same of the digits of escapes. -/
theorem hexDigit_digitChar
    {n : Nat}
    (hDigit : n < 16) :
    ∃ b, encode [Nat.digitChar n] = [b] ∧ HexDigit b n := by
  refine ⟨UInt8.ofNat (Nat.digitChar n).toNat, ?_,
    hDigit, .inl rfl⟩
  revert n
  decide

/- Each character is written as a text of it. -/
theorem charText_escapeChar
    (c : Char) :
    CharText (encode (escapeChar c)) c := by
  have hShort : ∀ (letter : UInt8) (d : Char),
      (letter, d) ∈ shortEscapes → c.toNat = d.toNat →
        CharText [0x5C, letter] c := by
    intro letter d hMem hEq
    rw [Char.toNat_inj.mp hEq]
    exact .short hMem
  unfold escapeChar
  split
  case h_1 hCode => exact hShort 0x62 '\x08' (by decide) hCode
  case h_2 hCode => exact hShort 0x74 '\t' (by decide) hCode
  case h_3 hCode => exact hShort 0x6E '\n' (by decide) hCode
  case h_4 hCode => exact hShort 0x66 '\x0C' (by decide) hCode
  case h_5 hCode => exact hShort 0x72 '\r' (by decide) hCode
  case h_6 hCode => exact hShort 0x22 '"' (by decide) hCode
  case h_7 hCode => exact hShort 0x5C '\\' (by decide) hCode
  case h_8 hQuote hBackslash =>
    split
    case isTrue hControl =>
      rcases hexDigit_digitChar (n := c.toNat / 16)
        (by omega) with ⟨b, hB, hHigh⟩
      rcases hexDigit_digitChar (n := c.toNat % 16)
        (Nat.mod_lt _ (by decide)) with ⟨b', hB', hLow⟩
      have hZero : HexDigit 0x30 0 := ⟨by decide, .inl rfl⟩
      have hDigits : HexNumber [0x30, 0x30, b, b'] c.toNat :=
        ⟨0x30, 0x30, b, b', 0, 0, c.toNat / 16,
          c.toNat % 16, rfl, hZero, hZero, hHigh, hLow,
          by omega⟩
      have hText : encode ['\\', 'u', '0', '0',
          Nat.digitChar (c.toNat / 16),
          Nat.digitChar (c.toNat % 16)] =
            [0x5C, 0x75, 0x30, 0x30, b, b'] := by
        have hSplit : ['\\', 'u', '0', '0',
            Nat.digitChar (c.toNat / 16),
            Nat.digitChar (c.toNat % 16)] =
              ['\\', 'u', '0', '0'] ++
                ([Nat.digitChar (c.toNat / 16)] ++
                  [Nat.digitChar (c.toNat % 16)]) :=
          rfl
        rw [hSplit, encode_append, encode_append, hB, hB']
        rfl
      rw [hText]
      exact .unicode hDigits
    case isFalse hPrintable =>
      have hOne : encode [c] = String.utf8EncodeChar c := by
        rw [encode_cons, Utf8.encode_nil, List.append_nil]
      rw [hOne]
      refine .plain (by omega) ?_ ?_
      · rintro rfl
        exact hQuote rfl
      · rintro rfl
        exact hBackslash rfl

/- What is escaped is read back. -/
theorem stringText_quoted
    (s : String) :
    StringText (encode (quoted s)) s := by
  have hChars : ∀ cs : List Char,
      Chars (encode (cs.flatMap escapeChar)) cs := by
    intro cs
    induction cs with
    | nil => exact .nil
    | cons c cs ih =>
        rw [List.flatMap_cons, encode_append]
        exact .cons (charText_escapeChar c) ih
  refine ⟨encode (escaped s), ?_, hChars s.toList⟩
  unfold quoted
  rw [encode_append, encode_append]
  rfl

------------------------------------------------------------
-- Values
------------------------------------------------------------

/-
  A value without a double, with integers that 64 bits hold
  and no two members of an object with the same key.
-/
inductive Plain : Json → Prop
  | null : Plain .null
  | boolean
      (value : Bool) :
      Plain (.boolean value)
  | integer
      {value : Int}
      (hLow : -2 ^ 63 ≤ value)
      (hHigh : value < 2 ^ 64) :
      Plain (.integer value)
  | unsigned
      (value : UInt64) :
      Plain (.unsigned value)
  | string
      (value : String) :
      Plain (.string value)
  | array
      {elements : List Json}
      (hElements : ∀ j ∈ elements, Plain j) :
      Plain (.array elements)
  | object
      {members : List (String × Json)}
      (hKeys : (members.map Prod.fst).Nodup)
      (hMembers : ∀ m ∈ members, Plain m.2) :
      Plain (.object members)

/- A comma before each part but the first. -/
theorem commas_cons
    (part : List Char)
    (parts : List (List Char)) :
    commas (part :: parts) =
      part ++ parts.flatMap (',' :: ·) := by
  unfold commas
  induction parts generalizing part with
  | nil => simp [List.intercalate_singleton]
  | cons next parts ih =>
      rw [List.intercalate_cons_cons, ih, List.flatMap_cons,
        List.append_assoc]
      rfl

/- The value is written as a text of the canonical one. -/
def Written
    (strtod : Strtod)
    (dumpFloat : Rat → List Char)
    (j : Json) : Prop :=
  Derives strtod (.value j.canonical)
    (encode (j.dump dumpFloat))

/- The elements after one of them. -/
theorem derives_elements
    {elements : List Json}
    (hEach : ∀ j ∈ elements, Written strtod dumpFloat j) :
    Derives strtod (.elements (elements.map canonical))
      (encode ((elements.map (dump dumpFloat)).flatMap
        (',' :: ·) ++ [']'])) := by
  induction elements with
  | nil => exact .lastElement Lexer.whitespace_nil
  | cons j elements ih =>
      rw [List.forall_mem_cons] at hEach
      rw [List.map_cons, List.map_cons, List.flatMap_cons,
        List.append_assoc, encode_append]
      exact .nextElement Lexer.whitespace_nil
        Lexer.whitespace_nil hEach.1 (ih hEach.2)

/- Element by element. -/
theorem Plain.derives_array
    {elements : List Json}
    (hEach : ∀ j ∈ elements, Written strtod dumpFloat j) :
    Written strtod dumpFloat (.array elements) := by
  unfold Written
  rw [canonical, canonicalElements_eq, dump, dumpElements_eq]
  cases elements with
  | nil => exact .emptyArray Lexer.whitespace_nil
  | cons j elements =>
      rw [List.forall_mem_cons] at hEach
      have hBracket : encode ['['] = 0x5B :: [] := by
        decide
      rw [List.map_cons, List.map_cons, commas_cons,
        List.append_assoc, List.append_assoc, encode_append,
        encode_append, hBracket, ← List.append_assoc]
      exact .array Lexer.whitespace_nil hEach.1
        (derives_elements hEach.2)

/- A member is written with its key. -/
theorem derives_member
    {key : String}
    {j : Json}
    (hValue : Written strtod dumpFloat j) :
    Derives strtod (.member key j.canonical)
      (encode (member (key, j.dump dumpFloat))) := by
  have hText : encode (member (key, j.dump dumpFloat)) =
      encode (quoted key) ++ [] ++
        0x3A :: [] ++ encode (j.dump dumpFloat) := by
    rw [member, encode_append, encode_append,
      List.append_nil]
    rfl
  rw [hText]
  exact .member (stringText_quoted key) Lexer.whitespace_nil
    Lexer.whitespace_nil hValue

/- The members after one of them. -/
theorem derives_members
    {members : List (String × Json)}
    (hEach : ∀ m ∈ members, Written strtod dumpFloat m.2) :
    Derives strtod
      (.members (members.map fun m => (m.1, m.2.canonical)))
      (encode ((members.map fun m =>
        member (m.1, m.2.dump dumpFloat)).flatMap
          (',' :: ·) ++ ['\x7d'])) := by
  induction members with
  | nil => exact .lastMember Lexer.whitespace_nil
  | cons entry members ih =>
      rw [List.forall_mem_cons] at hEach
      rw [List.map_cons, List.map_cons, List.flatMap_cons,
        List.append_assoc, encode_append]
      exact .nextMember Lexer.whitespace_nil
        Lexer.whitespace_nil (derives_member hEach.1)
        (ih hEach.2)

/- A member after all others is set at the end. -/
theorem setMember_append
    {key : String}
    {value : Json}
    {kept : List (String × Json)}
    (hLess : ∀ m ∈ kept, m.1 < key) :
    Parser.setMember key value kept =
      kept ++ [(key, value)] := by
  induction kept with
  | nil => rfl
  | cons first kept ih =>
      rw [List.forall_mem_cons] at hLess
      rw [Parser.setMember, if_neg hLess.1.ne',
        if_neg hLess.1.not_gt, ih hLess.2, List.cons_append]

/- Members in order stay in order. -/
theorem objectOf_of_sorted
    {members : List (String × Json)}
    (hSorted : members.Pairwise fun a b => a.1 < b.1) :
    objectOf members = members := by
  have hLoop : ∀ (kept rest : List (String × Json)),
      (kept ++ rest).Pairwise (fun a b => a.1 < b.1) →
      rest.foldl (fun kept member =>
          Parser.setMember member.1 member.2 kept) kept =
        kept ++ rest := by
    intro kept rest hAll
    induction rest generalizing kept with
    | nil => rw [List.foldl_nil, List.append_nil]
    | cons first rest ih =>
        have hLess : ∀ m ∈ kept, m.1 < first.1 := by
          intro m hMem
          exact (List.pairwise_append.mp hAll).2.2 m hMem
            first List.mem_cons_self
        rw [List.foldl_cons, setMember_append hLess]
        rw [← List.singleton_append, ← List.append_assoc]
          at hAll
        rw [ih _ hAll, List.append_assoc,
          List.singleton_append]
  exact hLoop [] members hSorted

/- The members of an object in the order of their keys. -/
def inOrder
    (members : List (String × Json)) :
    List (String × Json) :=
  members.insertionSort fun a b => a.1 ≤ b.1

/- The text has them in order. -/
theorem pairwise_inOrder
    {members : List (String × Json)}
    (hKeys : (members.map Prod.fst).Nodup) :
    (inOrder members).Pairwise fun a b => a.1 < b.1 := by
  have hMap : (inOrder members).map Prod.fst =
      (members.map Prod.fst).insertionSort (· ≤ ·) :=
    List.map_insertionSort _ _ _ _ fun _ _ _ _ => Iff.rfl
  have hLe := List.pairwise_insertionSort (· ≤ ·)
    (members.map Prod.fst)
  have hNe : ((members.map Prod.fst).insertionSort
      (· ≤ ·)).Nodup :=
    (List.perm_insertionSort _ _).nodup_iff.mpr hKeys
  rw [← hMap] at hLe hNe
  rw [List.pairwise_map] at hLe
  rw [List.Nodup, List.pairwise_map] at hNe
  exact (hLe.and hNe).imp fun hBoth =>
    lt_of_le_of_ne hBoth.1 hBoth.2

/- Member by member. -/
theorem Plain.derives_object
    {members : List (String × Json)}
    (hKeys : (members.map Prod.fst).Nodup)
    (hEach : ∀ m ∈ members, Written strtod dumpFloat m.2) :
    Written strtod dumpFloat (.object members) := by
  have hCanonical : canonical (.object members) =
      .object ((inOrder members).map fun m =>
        (m.1, m.2.canonical)) :=
    canonical_object members
  have hDump : sorted (dumpMembers dumpFloat members) =
      (inOrder members).map fun m =>
        (m.1, m.2.dump dumpFloat) := by
    rw [dumpMembers_eq]
    exact insertionSort_map members (dump dumpFloat)
  have hOrder : ((inOrder members).map fun m =>
      (m.1, m.2.canonical)).Pairwise
        fun a b => a.1 < b.1 := by
    rw [List.pairwise_map]
    exact pairwise_inOrder hKeys
  have hInOrder : ∀ m ∈ inOrder members,
      Written strtod dumpFloat m.2 :=
    fun m hMem => hEach m
      ((List.perm_insertionSort _ _).mem_iff.mp hMem)
  unfold Written
  rw [hCanonical, dump, hDump, List.map_map,
    Function.comp_def, ← objectOf_of_sorted hOrder]
  generalize inOrder members = entries at hInOrder
  cases entries with
  | nil => exact .emptyObject Lexer.whitespace_nil
  | cons entry entries =>
      rw [List.forall_mem_cons] at hInOrder
      have hBrace : encode ['\x7b'] = 0x7B :: [] := by
        decide
      rw [List.map_cons, List.map_cons, commas_cons,
        List.append_assoc, List.append_assoc, encode_append,
        encode_append, hBrace, ← List.append_assoc]
      exact .object Lexer.whitespace_nil
        (derives_member hInOrder.1)
        (derives_members hInOrder.2)

/- With its sign, if it has one. -/
theorem derives_integer
    {value : Int}
    (hLow : -2 ^ 63 ≤ value)
    (hHigh : value < 2 ^ 64) :
    Written strtod dumpFloat (.integer value) := by
  unfold Written
  rw [canonical, dump]
  cases value with
  | ofNat n =>
      have hNat : (n : Int) < 2 ^ 64 := hHigh
      have hRange : n < 2 ^ 64 := by
        omega
      have hText : (toString (Int.ofNat n)).toList =
          Nat.toDigits 10 n :=
        Nat.toList_repr
      rw [if_pos ⟨Int.natCast_nonneg n, hHigh⟩, hText]
      exact .scalar (.number (numberText_toDigits hRange))
  | negSucc n =>
      have hRange : n + 1 ≤ 2 ^ 63 := by
        omega
      have hText : (toString (Int.negSucc n)).toList =
          '-' :: Nat.toDigits 10 (n + 1) := by
        have hSplit : toString (Int.negSucc n) =
            "-" ++ Nat.repr (n + 1) :=
          rfl
        rw [hSplit, String.toList_append, Nat.toList_repr]
        rfl
      rw [if_neg (by omega), hText]
      exact .scalar (.number (numberText_negative hRange))

/- A plain value is written as a text of it. -/
theorem Plain.derives
    {j : Json}
    (hPlain : Plain j) :
    Written strtod dumpFloat j := by
  induction hPlain with
  | null => exact .scalar .null
  | boolean value =>
      cases value with
      | true => exact .scalar .true
      | false => exact .scalar .false
  | integer hLow hHigh => exact derives_integer hLow hHigh
  | unsigned value =>
      have hText : NumberText strtod
          (encode (Nat.toDigits 10 value.toNat))
          (some (.unsigned (UInt64.ofNat value.toNat))) :=
        numberText_toDigits value.toNat_lt
      rw [UInt64.ofNat_toNat] at hText
      exact .scalar (.number hText)
  | string value =>
      exact .scalar (.string (stringText_quoted value))
  | array _ ih => exact Plain.derives_array ih
  | object hKeys _ ih => exact Plain.derives_object hKeys ih

/- And is parsed from it, as the canonical value. -/
theorem Plain.parse_dump
    {j : Json}
    (strtod : Strtod)
    (dumpFloat : Rat → List Char)
    (hPlain : Plain j) :
    parse strtod (encode (j.dump dumpFloat)) =
      .ok j.canonical := by
  apply parse_of_document
  exact ⟨[], [], encode (j.dump dumpFloat), [], [], by simp,
    .inl rfl, Lexer.whitespace_nil, Lexer.whitespace_nil,
    hPlain.derives, .inl rfl⟩

end Json

end Poker

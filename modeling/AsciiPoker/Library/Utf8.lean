import Mathlib.Data.List.Forall2
import Mathlib.Data.String.Defs

/-
  The bytes that are text in UTF-8.

  Main declarations:
    * `Utf8.encode`, `Utf8.Valid`
    * `Utf8.following`, `Utf8.WellFormed.exists_char`
    * `Utf8.valid_append_iff`, `Utf8.valid_append_iff_front`,
      `Utf8.valid_flatMap_iff`
-/

namespace Utf8

------------------------------------------------------------
-- Characters
------------------------------------------------------------

/- A byte from the first end of a range to the second. -/
def InRange
    (b : UInt8)
    (range : UInt8 × UInt8) : Prop :=
  range.1 ≤ b ∧ b ≤ range.2

instance
    (b : UInt8)
    (range : UInt8 × UInt8) :
    Decidable (InRange b range) :=
  inferInstanceAs (Decidable (_ ∧ _))

/- The bytes of which all but the first of a character are. -/
def tail : UInt8 × UInt8 := (0x80, 0xBF)

/-
  What follows the first byte of a character, one range for
  each byte; nothing starts with any other byte.
-/
def following
    (lead : UInt8) : Option (List (UInt8 × UInt8)) :=
  if lead ≤ 0x7F then
    some []
  else if lead < 0xC2 then
    none
  else if lead ≤ 0xDF then
    some [tail]
  else if lead = 0xE0 then
    some [(0xA0, 0xBF), tail]
  else if lead = 0xED then
    some [(0x80, 0x9F), tail]
  else if lead ≤ 0xEF then
    some [tail, tail]
  else if lead = 0xF0 then
    some [(0x90, 0xBF), tail, tail]
  else if lead ≤ 0xF3 then
    some [tail, tail, tail]
  else if lead = 0xF4 then
    some [(0x80, 0x8F), tail, tail]
  else
    none

theorem following_eq_some
    {lead : UInt8}
    {ranges : List (UInt8 × UInt8)} :
    following lead = some ranges ↔
      lead.toNat ≤ 0x7F ∧ ranges = [] ∨
      0xC2 ≤ lead.toNat ∧ lead.toNat ≤ 0xDF ∧
        ranges = [tail] ∨
      lead.toNat = 0xE0 ∧ ranges = [(0xA0, 0xBF), tail] ∨
      lead.toNat = 0xED ∧ ranges = [(0x80, 0x9F), tail] ∨
      0xE1 ≤ lead.toNat ∧ lead.toNat ≤ 0xEF ∧
        lead.toNat ≠ 0xED ∧ ranges = [tail, tail] ∨
      lead.toNat = 0xF0 ∧
        ranges = [(0x90, 0xBF), tail, tail] ∨
      0xF1 ≤ lead.toNat ∧ lead.toNat ≤ 0xF3 ∧
        ranges = [tail, tail, tail] ∨
      lead.toNat = 0xF4 ∧
        ranges = [(0x80, 0x8F), tail, tail] := by
  unfold following
  simp only [UInt8.le_iff_toNat_le, UInt8.lt_iff_toNat_lt,
    ← UInt8.toNat_inj, UInt8.reduceToNat]
  split_ifs <;> grind

/- The lead and the rest are the bytes of one character. -/
def WellFormed
    (lead : UInt8)
    (rest : List UInt8) : Prop :=
  ∃ ranges, following lead = some ranges ∧
    List.Forall₂ InRange rest ranges

theorem inRange_ofNat
    {n : Nat}
    {range : UInt8 × UInt8} :
    InRange (UInt8.ofNat n) range ↔
      range.1.toNat ≤ n % 256 ∧ n % 256 ≤ range.2.toNat := by
  unfold InRange
  rw [UInt8.le_iff_toNat_le, UInt8.le_iff_toNat_le,
    UInt8.toNat_ofNat']

theorem inRange_tail
    (n : Nat) :
    InRange (UInt8.ofNat (n % 64 + 128)) tail := by
  rw [inRange_ofNat]
  simp only [tail, UInt8.reduceToNat]
  omega

/- The first of three bytes says what the second may be. -/
theorem wellFormed_three
    {v : Nat}
    (hLow : 0x800 ≤ v)
    (hHigh : v ≤ 0xFFFF)
    (hValid : v < 0xD800 ∨ 0xDFFF < v) :
    WellFormed (UInt8.ofNat (v / 4096 % 16 + 224))
      [UInt8.ofNat (v / 64 % 64 + 128),
        UInt8.ofNat (v % 64 + 128)] := by
  by_cases hFirst : v / 4096 = 0
  · refine ⟨[(0xA0, 0xBF), tail], ?_,
      .cons ?_ (.cons (inRange_tail v) .nil)⟩
    · rw [following_eq_some, UInt8.toNat_ofNat']
      refine .inr (.inr (.inl ⟨?_, rfl⟩))
      omega
    · rw [inRange_ofNat]
      simp only [UInt8.reduceToNat]
      omega
  by_cases hLast : v / 4096 = 13
  · refine ⟨[(0x80, 0x9F), tail], ?_,
      .cons ?_ (.cons (inRange_tail v) .nil)⟩
    · rw [following_eq_some, UInt8.toNat_ofNat']
      refine .inr (.inr (.inr (.inl ⟨?_, rfl⟩)))
      omega
    · rw [inRange_ofNat]
      simp only [UInt8.reduceToNat]
      omega
  · refine ⟨[tail, tail], ?_,
      .cons (inRange_tail _) (.cons (inRange_tail v) .nil)⟩
    rw [following_eq_some, UInt8.toNat_ofNat']
    refine .inr (.inr (.inr (.inr (.inl ⟨?_, ?_, ?_, rfl⟩))))
    · omega
    · omega
    · omega

/- And so does the first of four. -/
theorem wellFormed_four
    {v : Nat}
    (hLow : 0x10000 ≤ v)
    (hHigh : v < 0x110000) :
    WellFormed (UInt8.ofNat (v / 262144 % 8 + 240))
      [UInt8.ofNat (v / 4096 % 64 + 128),
        UInt8.ofNat (v / 64 % 64 + 128),
        UInt8.ofNat (v % 64 + 128)] := by
  have hLastTwo : List.Forall₂ InRange
      [UInt8.ofNat (v / 64 % 64 + 128),
        UInt8.ofNat (v % 64 + 128)] [tail, tail] :=
    .cons (inRange_tail _) (.cons (inRange_tail v) .nil)
  by_cases hFirst : v / 262144 = 0
  · refine ⟨[(0x90, 0xBF), tail, tail], ?_,
      .cons ?_ hLastTwo⟩
    · rw [following_eq_some, UInt8.toNat_ofNat']
      refine .inr (.inr (.inr (.inr (.inr (.inl
        ⟨?_, rfl⟩)))))
      omega
    · rw [inRange_ofNat]
      simp only [UInt8.reduceToNat]
      omega
  by_cases hLast : v / 262144 = 4
  · refine ⟨[(0x80, 0x8F), tail, tail], ?_,
      .cons ?_ hLastTwo⟩
    · rw [following_eq_some, UInt8.toNat_ofNat']
      refine .inr (.inr (.inr (.inr (.inr (.inr (.inr
        ⟨?_, rfl⟩))))))
      omega
    · rw [inRange_ofNat]
      simp only [UInt8.reduceToNat]
      omega
  · refine ⟨[tail, tail, tail], ?_,
      .cons (inRange_tail _) hLastTwo⟩
    rw [following_eq_some, UInt8.toNat_ofNat']
    refine .inr (.inr (.inr (.inr (.inr (.inr (.inl
      ⟨?_, ?_, rfl⟩))))))
    · omega
    · omega

/- The bytes of a character are well formed. -/
theorem wellFormed_of_char
    {c : Char}
    {lead : UInt8}
    {rest : List UInt8}
    (hChar : String.utf8EncodeChar c = lead :: rest) :
    WellFormed lead rest := by
  have hValid : c.val.toNat < 0xD800 ∨
      0xDFFF < c.val.toNat ∧ c.val.toNat < 0x110000 := c.valid
  unfold String.utf8EncodeChar at hChar
  dsimp only at hChar
  generalize c.val.toNat = v at hChar hValid
  split at hChar
  case isTrue hOne =>
    rcases List.cons.inj hChar with ⟨rfl, rfl⟩
    refine ⟨[], following_eq_some.mpr (.inl ⟨?_, rfl⟩), .nil⟩
    rw [UInt8.toNat_ofNat']
    omega
  split at hChar
  case isTrue hTwo =>
    rcases List.cons.inj hChar with ⟨rfl, rfl⟩
    refine ⟨[tail], following_eq_some.mpr ?_,
      .cons (inRange_tail v) .nil⟩
    rw [UInt8.toNat_ofNat']
    refine .inr (.inl ⟨?_, ?_, rfl⟩)
    · omega
    · omega
  split at hChar
  case isTrue hThree =>
    rcases List.cons.inj hChar with ⟨rfl, rfl⟩
    exact wellFormed_three (by omega) hThree (by omega)
  case isFalse hFour =>
    rcases List.cons.inj hChar with ⟨rfl, rfl⟩
    exact wellFormed_four (by omega) (by omega)

theorem encodeChar_of_ascii
    {c : Char}
    (hAscii : c.toNat ≤ 0x7F) :
    String.utf8EncodeChar c = [UInt8.ofNat c.toNat] := by
  have hVal : c.val.toNat = c.toNat := rfl
  unfold String.utf8EncodeChar
  dsimp only
  rw [hVal, if_pos hAscii]

/- Any other character starts with no byte that is one. -/
theorem lt_lead_of_char
    {c : Char}
    {lead : UInt8}
    {rest : List UInt8}
    (hChar : String.utf8EncodeChar c = lead :: rest)
    (hLarge : 0x7F < c.toNat) :
    0x7F < lead := by
  have hVal : c.val.toNat = c.toNat := rfl
  unfold String.utf8EncodeChar at hChar
  dsimp only at hChar
  rw [hVal, if_neg (by omega)] at hChar
  rw [UInt8.lt_iff_toNat_lt]
  simp only [UInt8.reduceToNat]
  split_ifs at hChar
  all_goals
    rcases List.cons.inj hChar with ⟨rfl, _⟩
    rw [UInt8.toNat_ofNat']
    omega

theorem exists_char_toNat_eq
    {v : Nat}
    (hValid : v < 0xD800 ∨ 0xDFFF < v ∧ v < 0x110000) :
    ∃ c : Char, c.val.toNat = v := by
  have hSmall : v < UInt32.size := by
    have : UInt32.size = 4294967296 := rfl
    omega
  have hChar : (UInt32.ofNatLT v hSmall).isValidChar := by
    unfold UInt32.isValidChar Nat.isValidChar
    rw [UInt32.toNat_ofNatLT]
    exact hValid
  exact ⟨⟨_, hChar⟩, UInt32.toNat_ofNatLT ..⟩

theorem forall₂_inRange_cons
    {rest : List UInt8}
    {range : UInt8 × UInt8}
    {ranges : List (UInt8 × UInt8)} :
    List.Forall₂ InRange rest (range :: ranges) ↔
      ∃ b others, rest = b :: others ∧
        range.1.toNat ≤ b.toNat ∧ b.toNat ≤ range.2.toNat ∧
        List.Forall₂ InRange others ranges := by
  rw [List.forall₂_cons_right_iff]
  simp only [InRange, UInt8.le_iff_toNat_le]
  constructor
  · rintro ⟨b, others, ⟨hLow, hHigh⟩, hOthers, rfl⟩
    exact ⟨b, others, rfl, hLow, hHigh, hOthers⟩
  · rintro ⟨b, others, rfl, hLow, hHigh, hOthers⟩
    exact ⟨b, others, ⟨hLow, hHigh⟩, hOthers, rfl⟩

theorem ofNat_eq
    {n : Nat}
    {b : UInt8}
    (hEq : n % 256 = b.toNat) :
    UInt8.ofNat n = b := by
  rw [← UInt8.toNat_inj, UInt8.toNat_ofNat', hEq]

/- Two bytes are a character when their value needs two. -/
theorem exists_char_two
    {lead second : UInt8}
    (hLead : 0xC2 ≤ lead.toNat ∧ lead.toNat ≤ 0xDF)
    (hSecond : 0x80 ≤ second.toNat ∧ second.toNat ≤ 0xBF) :
    ∃ c, String.utf8EncodeChar c = [lead, second] := by
  rcases exists_char_toNat_eq
    (v := (lead.toNat - 0xC0) * 64 + (second.toNat - 0x80))
    (by omega) with ⟨c, hc⟩
  refine ⟨c, ?_⟩
  unfold String.utf8EncodeChar
  dsimp only
  rw [hc, if_neg (by omega), if_pos (by omega),
    List.cons.injEq, List.cons.injEq]
  exact ⟨ofNat_eq (by omega), ofNat_eq (by omega), rfl⟩

/- And three when it needs three and is no surrogate. -/
theorem exists_char_three
    {lead second third : UInt8}
    (hLead : 0xE0 ≤ lead.toNat ∧ lead.toNat ≤ 0xEF)
    (hSecond : 0x80 ≤ second.toNat ∧ second.toNat ≤ 0xBF)
    (hThird : 0x80 ≤ third.toNat ∧ third.toNat ≤ 0xBF)
    (hLong : lead.toNat = 0xE0 → 0xA0 ≤ second.toNat)
    (hScalar : lead.toNat = 0xED → second.toNat ≤ 0x9F) :
    ∃ c, String.utf8EncodeChar c =
      [lead, second, third] := by
  rcases exists_char_toNat_eq
    (v := (lead.toNat - 0xE0) * 4096 +
      (second.toNat - 0x80) * 64 + (third.toNat - 0x80))
    (by omega) with ⟨c, hc⟩
  refine ⟨c, ?_⟩
  unfold String.utf8EncodeChar
  dsimp only
  rw [hc, if_neg (by omega), if_neg (by omega),
    if_pos (by omega), List.cons.injEq, List.cons.injEq,
    List.cons.injEq]
  exact ⟨ofNat_eq (by omega), ofNat_eq (by omega),
    ofNat_eq (by omega), rfl⟩

/- And four when it needs four and is not too large. -/
theorem exists_char_four
    {lead second third fourth : UInt8}
    (hLead : 0xF0 ≤ lead.toNat ∧ lead.toNat ≤ 0xF4)
    (hSecond : 0x80 ≤ second.toNat ∧ second.toNat ≤ 0xBF)
    (hThird : 0x80 ≤ third.toNat ∧ third.toNat ≤ 0xBF)
    (hFourth : 0x80 ≤ fourth.toNat ∧ fourth.toNat ≤ 0xBF)
    (hLong : lead.toNat = 0xF0 → 0x90 ≤ second.toNat)
    (hSmall : lead.toNat = 0xF4 → second.toNat ≤ 0x8F) :
    ∃ c, String.utf8EncodeChar c =
      [lead, second, third, fourth] := by
  rcases exists_char_toNat_eq
    (v := (lead.toNat - 0xF0) * 262144 +
      (second.toNat - 0x80) * 4096 +
      (third.toNat - 0x80) * 64 + (fourth.toNat - 0x80))
    (by omega) with ⟨c, hc⟩
  refine ⟨c, ?_⟩
  unfold String.utf8EncodeChar
  dsimp only
  rw [hc, if_neg (by omega), if_neg (by omega),
    if_neg (by omega), List.cons.injEq, List.cons.injEq,
    List.cons.injEq, List.cons.injEq]
  exact ⟨ofNat_eq (by omega), ofNat_eq (by omega),
    ofNat_eq (by omega), ofNat_eq (by omega), rfl⟩

theorem exists_char_one
    {lead : UInt8}
    (hLead : lead.toNat ≤ 0x7F) :
    ∃ c, String.utf8EncodeChar c = [lead] := by
  rcases exists_char_toNat_eq (v := lead.toNat)
    (by omega) with ⟨c, hc⟩
  refine ⟨c, ?_⟩
  unfold String.utf8EncodeChar
  dsimp only
  rw [hc, if_pos hLead, ofNat_eq (b := lead) (by omega)]

/- Bytes that are well formed are a character. -/
theorem WellFormed.exists_char
    {lead : UInt8}
    {rest : List UInt8}
    (hFormed : WellFormed lead rest) :
    ∃ c, String.utf8EncodeChar c = lead :: rest := by
  rcases hFormed with ⟨ranges, hRanges, hRest⟩
  rcases following_eq_some.mp hRanges with
    ⟨hLead, rfl⟩ | ⟨hLow, hHigh, rfl⟩ | ⟨hLead, rfl⟩ |
    ⟨hLead, rfl⟩ | ⟨hLow, hHigh, hNot, rfl⟩ | ⟨hLead, rfl⟩ |
    ⟨hLow, hHigh, rfl⟩ | ⟨hLead, rfl⟩
  all_goals
    simp only [forall₂_inRange_cons,
      List.forall₂_nil_right_iff, tail, UInt8.reduceToNat]
      at hRest
  case inl =>
    subst hRest
    exact exists_char_one hLead
  case inr.inl =>
    rcases hRest with ⟨b, _, rfl, hB, hB', rfl⟩
    exact exists_char_two ⟨hLow, hHigh⟩ ⟨hB, hB'⟩
  all_goals
    rcases hRest with ⟨b, _, rfl, hB, hB', hRest⟩
    rcases hRest with ⟨c, _, rfl, hC, hC', hRest⟩
  case inr.inr.inl =>
    subst hRest
    exact exists_char_three (by omega) (by omega) ⟨hC, hC'⟩
      (by omega) (by omega)
  case inr.inr.inr.inl =>
    subst hRest
    exact exists_char_three (by omega) (by omega) ⟨hC, hC'⟩
      (by omega) (by omega)
  case inr.inr.inr.inr.inl =>
    subst hRest
    exact exists_char_three (by omega) (by omega) ⟨hC, hC'⟩
      (by omega) (by omega)
  all_goals
    rcases hRest with ⟨d, _, rfl, hD, hD', rfl⟩
    exact exists_char_four (by omega) (by omega) ⟨hC, hC'⟩
      ⟨hD, hD'⟩ (by omega) (by omega)

------------------------------------------------------------
-- Texts
------------------------------------------------------------

/- The bytes of the characters of a text. -/
def encode
    (text : List Char) : List UInt8 :=
  text.flatMap String.utf8EncodeChar

/- The bytes are some text. -/
def Valid
    (bytes : List UInt8) : Prop :=
  ∃ text, bytes = encode text

@[simp] theorem encode_nil :
    encode [] = [] := rfl

theorem encode_cons
    (c : Char)
    (text : List Char) :
    encode (c :: text) =
      String.utf8EncodeChar c ++ encode text := by
  rw [encode, List.flatMap_cons, encode]

theorem encode_append
    (text more : List Char) :
    encode (text ++ more) = encode text ++ encode more :=
  List.flatMap_append

theorem valid_nil : Valid [] :=
  ⟨[], rfl⟩

/- A text starts with the bytes of a character. -/
theorem valid_cons_iff
    {lead : UInt8}
    {bytes : List UInt8} :
    Valid (lead :: bytes) ↔
      ∃ rest others, bytes = rest ++ others ∧
        WellFormed lead rest ∧ Valid others := by
  constructor
  · rintro ⟨text, hText⟩
    cases text with
    | nil => cases hText
    | cons c text =>
        rw [encode_cons] at hText
        cases hChar : String.utf8EncodeChar c with
        | nil => exact absurd hChar String.utf8EncodeChar_ne_nil
        | cons first rest =>
            rw [hChar, List.cons_append] at hText
            rcases List.cons.inj hText with ⟨rfl, rfl⟩
            exact ⟨rest, encode text, rfl,
              wellFormed_of_char hChar, text, rfl⟩
  · rintro ⟨rest, others, rfl, hFormed, text, rfl⟩
    rcases hFormed.exists_char with ⟨c, hChar⟩
    refine ⟨c :: text, ?_⟩
    rw [encode_cons, hChar, List.cons_append]

/- How many bytes follow a lead does not depend on them. -/
theorem WellFormed.append_inj
    {lead : UInt8}
    {rest rest' others others' : List UInt8}
    (hFormed : WellFormed lead rest)
    (hFormed' : WellFormed lead rest')
    (hEq : rest ++ others = rest' ++ others') :
    rest = rest' ∧ others = others' := by
  rcases hFormed with ⟨ranges, hRanges, hRest⟩
  rcases hFormed' with ⟨ranges', hRanges', hRest'⟩
  rw [hRanges, Option.some.injEq] at hRanges'
  subst hRanges'
  have hLength : rest.length = rest'.length := by
    rw [hRest.length_eq, hRest'.length_eq]
  exact List.append_inj hEq hLength

/- After a text there is a text when the whole is one. -/
theorem valid_append_iff
    {front back : List UInt8}
    (hFront : Valid front) :
    Valid (front ++ back) ↔ Valid back := by
  rcases hFront with ⟨text, rfl⟩
  induction text with
  | nil => rw [encode_nil, List.nil_append]
  | cons c text ih =>
      rw [encode_cons]
      cases hChar : String.utf8EncodeChar c with
      | nil => exact absurd hChar String.utf8EncodeChar_ne_nil
      | cons first rest =>
          have hFormed := wellFormed_of_char hChar
          rw [List.cons_append, List.cons_append,
            valid_cons_iff, List.append_assoc, ← ih]
          constructor
          · rintro ⟨rest', others, hEq, hFormed', hOthers⟩
            rw [(hFormed.append_inj hFormed' hEq).2]
            exact hOthers
          · exact fun hValid => ⟨rest, _, rfl, hFormed, hValid⟩

theorem valid_of_ascii
    {bytes : List UInt8}
    (hAscii : ∀ b ∈ bytes, b ≤ 0x7F) :
    Valid bytes := by
  induction bytes with
  | nil => exact valid_nil
  | cons b bytes ih =>
      rw [List.forall_mem_cons] at hAscii
      refine valid_cons_iff.mpr
        ⟨[], bytes, rfl, ⟨[], ?_, .nil⟩, ih hAscii.2⟩
      rw [following, if_pos hAscii.1]

/- The bytes after the first are of the tail. -/
theorem WellFormed.tail_of_mem
    {lead b : UInt8}
    {rest : List UInt8}
    (hFormed : WellFormed lead rest)
    (hMem : b ∈ rest) :
    0x80 ≤ b.toNat ∧ b.toNat < 0xC0 := by
  rcases hFormed with ⟨ranges, hRanges, hRest⟩
  have hTail : ∀ range ∈ ranges,
      0x80 ≤ range.1.toNat ∧ range.2.toNat < 0xC0 := by
    rcases following_eq_some.mp hRanges with
      ⟨_, rfl⟩ | ⟨_, _, rfl⟩ | ⟨_, rfl⟩ | ⟨_, rfl⟩ |
      ⟨_, _, _, rfl⟩ | ⟨_, rfl⟩ | ⟨_, _, rfl⟩ | ⟨_, rfl⟩
    all_goals simp [tail]
  clear hRanges
  induction hRest with
  | nil => cases hMem
  | @cons first range others ranges hFirst _ ih =>
      have hBounds := hTail range List.mem_cons_self
      rcases List.mem_cons.mp hMem with rfl | hOthers
      · rcases hFirst with ⟨hLow, hHigh⟩
        rw [UInt8.le_iff_toNat_le] at hLow hHigh
        omega
      · exact ih hOthers fun range hRange =>
          hTail range (List.mem_cons_of_mem _ hRange)

/- And no character starts with one of those. -/
theorem WellFormed.lead_not_tail
    {lead : UInt8}
    {rest : List UInt8}
    (hFormed : WellFormed lead rest) :
    ¬ (0x80 ≤ lead.toNat ∧ lead.toNat < 0xC0) := by
  rcases hFormed with ⟨ranges, hRanges, _⟩
  have hCases := following_eq_some.mp hRanges
  omega

/- Before a text there is a text when the whole is one. -/
theorem valid_append_iff_front
    {front back : List UInt8}
    (hBack : Valid back) :
    Valid (front ++ back) ↔ Valid front := by
  constructor
  · induction hLength : front.length using
      Nat.strongRecOn generalizing front with
    | ind n ih =>
        intro hValid
        cases front with
        | nil => exact valid_nil
        | cons lead front =>
            rcases valid_cons_iff.mp hValid with
              ⟨rest, others, hEq, hFormed, hOthers⟩
            rcases List.append_eq_append_iff.mp hEq with
              ⟨more, rfl, rfl⟩ | ⟨more, rfl, rfl⟩
            · -- The character would go on after the front.
              cases more with
              | nil =>
                  rw [List.append_nil] at hFormed
                  exact valid_cons_iff.mpr
                    ⟨front, [], (List.append_nil _).symm,
                      hFormed, valid_nil⟩
              | cons b more =>
                  rcases valid_cons_iff.mp hBack with
                    ⟨_, _, _, hFormed', _⟩
                  exact absurd
                    (hFormed.tail_of_mem (b := b) (by simp))
                    hFormed'.lead_not_tail
            · refine valid_cons_iff.mpr
                ⟨rest, more, rfl, hFormed, ?_⟩
              refine ih more.length ?_ rfl hOthers
              rw [← hLength, List.length_cons,
                List.length_append]
              omega
  · exact fun hFront => (valid_append_iff hFront).mpr hBack

/- Bytes that are not ASCII are there before a rewriting. -/
theorem of_flatMap_eq_append
    {f : UInt8 → List UInt8}
    {bytes front back : List UInt8}
    (hAscii : ∀ b, b ≤ 0x7F →
      f b ≠ [] ∧ ∀ c ∈ f b, c ≤ 0x7F)
    (hOther : ∀ b, 0x7F < b → f b = [b])
    (hFront : ∀ b ∈ front, 0x7F < b)
    (hEq : bytes.flatMap f = front ++ back) :
    ∃ others, bytes = front ++ others ∧
      others.flatMap f = back := by
  induction front generalizing bytes with
  | nil => exact ⟨bytes, rfl, hEq⟩
  | cons b front ih =>
      rw [List.forall_mem_cons] at hFront
      cases bytes with
      | nil => cases hEq
      | cons first bytes =>
          rw [List.flatMap_cons] at hEq
          rcases UInt8.le_or_lt first 0x7F with hSmall | hLarge
          · rcases hAscii first hSmall with ⟨hSome, hAll⟩
            cases hFirst : f first with
            | nil => exact absurd hFirst hSome
            | cons c cs =>
                rw [hFirst, List.cons_append] at hEq
                rcases List.cons.inj hEq with ⟨rfl, _⟩
                exact absurd hFront.1 (UInt8.not_lt.mpr
                  (hAll c (by rw [hFirst]; simp)))
          · rw [hOther first hLarge, List.cons_append] at hEq
            rcases List.cons.inj hEq with ⟨rfl, hRest⟩
            rcases ih hFront.2 hRest with ⟨others, rfl, hBack⟩
            exact ⟨others, rfl, hBack⟩

/- What is ASCII may be written in another way in ASCII. -/
theorem valid_flatMap_iff
    {f : UInt8 → List UInt8}
    {bytes : List UInt8}
    (hAscii : ∀ b, b ≤ 0x7F →
      f b ≠ [] ∧ ∀ c ∈ f b, c ≤ 0x7F)
    (hOther : ∀ b, 0x7F < b → f b = [b]) :
    Valid (bytes.flatMap f) ↔ Valid bytes := by
  induction hLength : bytes.length using
    Nat.strongRecOn generalizing bytes with
  | ind n ih =>
      cases bytes with
      | nil => exact Iff.rfl
      | cons b bytes =>
          rw [List.flatMap_cons]
          rcases UInt8.le_or_lt b 0x7F with hSmall | hLarge
          · have hOne : Valid [b] :=
              valid_of_ascii (by simpa using hSmall)
            rw [valid_append_iff
                (valid_of_ascii (hAscii b hSmall).2),
              ih bytes.length (by rw [← hLength]; simp) rfl,
              ← List.singleton_append,
              valid_append_iff hOne]
          · rw [hOther b hLarge, List.singleton_append,
              valid_cons_iff, valid_cons_iff]
            have hLead : ∀ {rest}, WellFormed b rest →
                ∀ c ∈ rest, 0x7F < c := by
              intro rest hFormed c hMem
              have hTail := hFormed.tail_of_mem hMem
              rw [UInt8.lt_iff_toNat_lt]
              exact Nat.lt_of_lt_of_le (by decide) hTail.1
            constructor
            · rintro ⟨rest, others, hEq, hFormed, hOthers⟩
              rcases of_flatMap_eq_append hAscii hOther
                (hLead hFormed) hEq with ⟨others', rfl, rfl⟩
              refine ⟨rest, others', rfl, hFormed, ?_⟩
              refine (ih others'.length ?_ rfl).mp hOthers
              rw [← hLength, List.length_cons,
                List.length_append]
              omega
            · rintro ⟨rest, others, rfl, hFormed, hOthers⟩
              have hRest : rest.flatMap f = rest := by
                have hSame : rest.flatMap f =
                    rest.flatMap fun c => [c] :=
                  List.flatMap_congr fun c hMem =>
                    hOther c (hLead hFormed c hMem)
                rw [hSame, List.flatMap_singleton']
              refine ⟨rest, others.flatMap f, ?_, hFormed, ?_⟩
              · rw [List.flatMap_append, hRest]
              · refine (ih others.length ?_ rfl).mpr hOthers
                rw [← hLength, List.length_cons,
                  List.length_append]
                omega

------------------------------------------------------------
-- Strings
------------------------------------------------------------

theorem utf8Encode_eq
    (text : List Char) :
    text.utf8Encode = ⟨(encode text).toArray⟩ := by
  apply ByteArray.ext
  rw [List.utf8Encode, List.data_toByteArray, encode]

/- A text is read as its characters. -/
theorem fromUTF8?_encode
    (text : List Char) :
    String.fromUTF8? ⟨(encode text).toArray⟩ =
      some (String.ofList text) := by
  rw [← utf8Encode_eq, String.fromUTF8?,
    dif_pos ByteArray.isValidUTF8_utf8Encode]
  rfl

theorem fromUTF8?_eq_none
    {bytes : List UInt8} :
    String.fromUTF8? ⟨bytes.toArray⟩ = none ↔
      ¬ Valid bytes := by
  constructor
  · rintro hNone ⟨text, rfl⟩
    rw [fromUTF8?_encode] at hNone
    cases hNone
  · intro hNot
    rw [String.fromUTF8?, dif_neg]
    rintro ⟨text, hText⟩
    rw [utf8Encode_eq, ByteArray.mk.injEq] at hText
    exact hNot ⟨text, Array.toList_inj.mpr hText⟩

end Utf8

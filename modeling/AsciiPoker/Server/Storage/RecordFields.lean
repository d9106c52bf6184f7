import AsciiPoker.Library.Bytes
import AsciiPoker.Library.Scanning
import AsciiPoker.Server.Storage.PasswordHash

/-
  The fields of a stored password, and what their readers
  accept.

  The readers come from the C++ library and take more than
  a number and pairs of digits.  Each is given here by the
  texts that it reads.

  Main declarations:
    * `Fields`, `splitStored_eq_some`
    * `Counts`, `stoi_eq_ok`
    * `HexDigit`, `ReadsPair`, `Pairs`, `fromHex_isSome`
    * `fromHex_toHex`, `toHex_eq_formatted`
-/

namespace Poker

namespace Server

namespace PasswordHasher

variable {text rest : List Char}

/- The bytes of an ASCII text are its characters. -/
theorem chars_ofList
    (hAscii : ∀ c ∈ text, c.toNat < 128) :
    chars (String.ofList text) = text := by
  unfold chars
  rw [String.toUTF8_eq_toByteArray, String.toByteArray_ofList,
    Bytes.utf8Encode_of_ascii hAscii, List.map_map]
  refine (List.map_congr_left ?_).trans (List.map_id text)
  intro c hc
  have hSmall := hAscii c hc
  have hByte : (UInt8.ofNat c.toNat).toNat = c.toNat := by
    rw [UInt8.toNat_ofNat']
    omega
  change Char.ofNat (UInt8.ofNat c.toNat).toNat = c
  rw [hByte, Char.ofNat_toNat]

------------------------------------------------------------
-- Splitting
------------------------------------------------------------

/- A text is cut at its first `$`. -/
theorem splitDollar_eq_some
    {first : List Char} :
    splitDollar text = some (first, rest) ↔
      text = first ++ '$' :: rest ∧ '$' ∉ first := by
  have hSplit : splitDollar text = some (first, rest) ↔
      text.takeWhile (· ≠ '$') = first ∧
        ∃ c, text.dropWhile (· ≠ '$') = c :: rest := by
    unfold splitDollar
    cases text.dropWhile (· ≠ '$') with
    | nil => simp
    | cons c after => simp
  rw [hSplit]
  constructor
  · rintro ⟨hTake, c, hDrop⟩
    rcases Scanning.takeWhile_dropWhile_iff.mp ⟨hTake, hDrop⟩
      with ⟨rfl, hBefore, hStop⟩
    have hDollar : c = '$' := by simpa using hStop c rfl
    subst hDollar
    refine ⟨rfl, ?_⟩
    intro hMem
    simpa using hBefore _ hMem
  · rintro ⟨rfl, hNone⟩
    have hBefore : ∀ c ∈ first, decide (c ≠ '$') = true := by
      intro c hc
      exact decide_eq_true (ne_of_mem_of_not_mem hc hNone)
    have hBoth := Scanning.takeWhile_dropWhile_iff.mpr
      ⟨(rfl : first ++ '$' :: rest = _), hBefore, by simp⟩
    exact ⟨hBoth.1, '$', hBoth.2⟩

/-
  `text` is of the kind `kind` and has three more fields.
  The last one is the rest of the text, whatever is in it.
-/
structure Fields
    (text kind count saltHex hashHex : List Char) :
    Prop where
  text_eq : text =
    kind ++ '$' :: count ++ '$' :: saltHex ++ '$' :: hashHex
  kind_whole : '$' ∉ kind
  count_whole : '$' ∉ count
  salt_whole : '$' ∉ saltHex

/- Three separators make four fields. -/
theorem splitStored_eq_some
    {kind count saltHex hashHex : List Char} :
    splitStored text = some (kind, count, saltHex, hashHex) ↔
      Fields text kind count saltHex hashHex := by
  constructor
  · intro hSplit
    unfold splitStored at hSplit
    simp only [Option.bind_eq_bind,
      Option.bind_eq_some_iff] at hSplit
    rcases hSplit with
      ⟨⟨_, _⟩, hKind, ⟨_, _⟩, hCount, ⟨_, _⟩, hSalt, hEnd⟩
    cases hEnd
    rw [splitDollar_eq_some] at hKind hCount hSalt
    rcases hKind with ⟨rfl, hKind⟩
    rcases hCount with ⟨rfl, hCount⟩
    rcases hSalt with ⟨rfl, hSalt⟩
    exact ⟨by simp, hKind, hCount, hSalt⟩
  · rintro ⟨rfl, hKind, hCount, hSalt⟩
    have hFirst : splitDollar (kind ++ '$' :: count ++
          '$' :: saltHex ++ '$' :: hashHex) =
        some (kind, count ++ '$' :: saltHex ++
          '$' :: hashHex) :=
      splitDollar_eq_some.mpr ⟨by simp, hKind⟩
    have hSecond : splitDollar (count ++ '$' :: saltHex ++
          '$' :: hashHex) =
        some (count, saltHex ++ '$' :: hashHex) :=
      splitDollar_eq_some.mpr ⟨by simp, hCount⟩
    have hThird : splitDollar (saltHex ++ '$' :: hashHex) =
        some (saltHex, hashHex) :=
      splitDollar_eq_some.mpr ⟨rfl, hSalt⟩
    unfold splitStored
    rw [hFirst]
    change (splitDollar (count ++ '$' :: saltHex ++
      '$' :: hashHex)).bind _ = _
    rw [hSecond]
    change (splitDollar (saltHex ++ '$' :: hashHex)).bind _ = _
    rw [hThird]
    rfl

------------------------------------------------------------
-- Digits and What Comes First
------------------------------------------------------------

/- A hexadecimal digit, in either case. -/
def HexDigit
    (c : Char) : Prop :=
  ('0' ≤ c ∧ c ≤ '9') ∨ ('a' ≤ c ∧ c ≤ 'f') ∨
    ('A' ≤ c ∧ c ≤ 'F')

/- Digits can be told from other characters. -/
instance (c : Char) : Decidable (HexDigit c) :=
  inferInstanceAs (Decidable (_ ∨ _))

/- A decimal digit is one. -/
theorem hexDigit_of_isDigit
    {c : Char}
    (hDigit : c.isDigit) :
    HexDigit c := by
  unfold Char.isDigit at hDigit
  rw [Bool.and_eq_true, decide_eq_true_eq,
    decide_eq_true_eq] at hDigit
  exact Or.inl hDigit

/- What is passed over in front of a number. -/
def Passes
    (c : Char) : Prop :=
  isSpace c ∨ c = '+' ∨ c = '-'

/- What the stream skips can be told, too. -/
instance (c : Char) : Decidable (Passes c) :=
  inferInstanceAs (Decidable (_ ∨ _))

/- Blanks and signs pass. -/
theorem not_passes_iff
    {c : Char} :
    ¬ Passes c ↔
      ¬ isSpace c ∧ ¬ c = '+' ∧ ¬ c = '-' := by
  unfold Passes
  rw [not_or, not_or]

/- A digit does not. -/
theorem not_passes_of_hexDigit
    {c : Char}
    (hDigit : HexDigit c) :
    ¬ Passes c := by
  have hLow : 48 ≤ c.toNat := by
    rcases hDigit with ⟨hLow, _⟩ | ⟨hLow, _⟩ | ⟨hLow, _⟩
    · exact hLow
    · exact Nat.le_trans (by decide) (show 97 ≤ c.toNat from hLow)
    · exact Nat.le_trans (by decide) (show 65 ≤ c.toNat from hLow)
  rintro (hSpace | rfl | rfl)
  · unfold isSpace at hSpace
    simp only [Bool.or_eq_true, Bool.and_eq_true,
      decide_eq_true_eq] at hSpace
    rcases hSpace with rfl | ⟨_, hHigh⟩
    · exact absurd hLow (by decide)
    · omega
  · exact absurd hLow (by decide)
  · exact absurd hLow (by decide)

------------------------------------------------------------
-- Decimal Numbers
------------------------------------------------------------

/- Whether a minus stands in front, and what follows a sign. -/
def signOf : List Char → Bool × List Char
| '-' :: rest => (true, rest)
| '+' :: rest => (false, rest)
| rest => (false, rest)

/- What `std::stoi` makes of the text after a sign. -/
def stoiUnsigned
    (negative : Bool)
    (text : List Char) : Except Exn Int :=
  match text.takeWhile Char.isDigit with
  | [] => .error .invalidArgument
  | digits =>
      let value :=
        if negative then - decimal digits else decimal digits
      if value < -2 ^ 31 ∨ 2 ^ 31 ≤ value then
        .error .outOfRange
      else
        .ok value

/- Blanks, then a sign, then digits. -/
theorem stoi_eq :
    stoi text =
      stoiUnsigned (signOf (text.dropWhile isSpace)).1
        (signOf (text.dropWhile isSpace)).2 :=
  rfl

/- A sign is cut off, and nothing else is. -/
theorem exists_sign
    (text : List Char) :
    ∃ sign : List Char,
      (sign = [] ∨ sign = ['+'] ∨ sign = ['-']) ∧
        text = sign ++ (signOf text).2 ∧
        (signOf text).1 = decide (sign = ['-']) := by
  unfold signOf
  split
  · exact ⟨['-'], by simp, rfl, rfl⟩
  · exact ⟨['+'], by simp, rfl, rfl⟩
  · exact ⟨[], by simp, rfl, rfl⟩

/- Most numbers have no sign. -/
theorem signOf_of_plain
    {c : Char}
    (hPlus : c ≠ '+')
    (hMinus : c ≠ '-') :
    signOf (c :: rest) = (false, c :: rest) := by
  unfold signOf
  split
  next hCut =>
    cases hCut
    exact absurd rfl hMinus
  next hCut =>
    cases hCut
    exact absurd rfl hPlus
  next => rfl

/- A number that `text` starts with, and that an `int` holds. -/
structure Numeral
    (negative : Bool)
    (text digits : List Char)
    (value : Int) : Prop where
  starts : ∃ rest, text = digits ++ rest ∧
    ∀ c ∈ rest.head?, c.isDigit = false
  digits_ne_nil : digits ≠ []
  isDigit : ∀ c ∈ digits, c.isDigit
  value_eq : value =
    if negative then - decimal digits else decimal digits
  low : -2 ^ 31 ≤ value
  high : value < 2 ^ 31

/- What is read are the digits in front. -/
theorem stoiUnsigned_eq_ok
    {negative : Bool}
    {value : Int} :
    stoiUnsigned negative text = .ok value ↔
      ∃ digits, Numeral negative text digits value := by
  constructor
  · intro hOk
    unfold stoiUnsigned at hOk
    split at hOk
    · cases hOk
    next hSome =>
      dsimp only at hOk
      generalize hValue : (if negative = true then
        - decimal (text.takeWhile Char.isDigit) else
          decimal (text.takeWhile Char.isDigit)) = v at hOk
      split at hOk
      · cases hOk
      next hRange =>
        rw [Except.ok.injEq] at hOk
        rcases Scanning.takeWhile_dropWhile_spec
            Char.isDigit text with
          ⟨hText, hDigits, hStop⟩
        rw [not_or, Int.not_lt, Int.not_le, hOk] at hRange
        exact ⟨_, ⟨_, hText, hStop⟩, hSome, hDigits,
          (hOk ▸ hValue).symm, hRange.1, hRange.2⟩
  · rintro ⟨digits, ⟨rest, rfl, hStop⟩, hSome, hDigits,
      hValue, hLow, hHigh⟩
    have hTake := (Scanning.takeWhile_dropWhile_iff.mpr
      ⟨rfl, hDigits, hStop⟩).1
    have hRange : ¬ (value < -2 ^ 31 ∨ 2 ^ 31 ≤ value) := by
      omega
    unfold stoiUnsigned
    rw [hTake]
    cases digits with
    | nil => exact absurd rfl hSome
    | cons d ds =>
        dsimp only
        rw [← hValue, if_neg hRange]

/-
  `std::stoi` reads `value`: white space, at most one sign,
  digits, and then anything but a digit.
-/
inductive Counts : List Char → Int → Prop
  | read
      {spaces body digits : List Char}
      {sign : List Char}
      {value : Int}
      (hSpaces : ∀ c ∈ spaces, isSpace c)
      (hSign : sign = [] ∨ sign = ['+'] ∨ sign = ['-'])
      (hNumeral : Numeral (sign = ['-']) body digits value) :
      Counts (spaces ++ sign ++ body) value

/- And these are the texts that are read. -/
theorem stoi_eq_ok
    {value : Int} :
    stoi text = .ok value ↔ Counts text value := by
  rw [stoi_eq]
  constructor
  · intro hOk
    rcases stoiUnsigned_eq_ok.mp hOk with ⟨digits, hNumeral⟩
    rcases Scanning.takeWhile_dropWhile_spec isSpace text with
      ⟨hText, hSpaces, _⟩
    rcases exists_sign (text.dropWhile isSpace) with
      ⟨sign, hSign, hCut, hNegative⟩
    rw [hNegative] at hNumeral
    rw [hCut, ← List.append_assoc] at hText
    rw [hText]
    exact Counts.read hSpaces hSign hNumeral
  · rintro ⟨hSpaces, hSign, hNumeral⟩
    rename_i spaces body digits sign
    rcases hNumeral.starts with ⟨rest, hBody, _⟩
    cases hDigits : digits with
    | nil => exact absurd hDigits hNumeral.digits_ne_nil
    | cons d ds =>
        subst hDigits
        have hPlain := not_passes_iff.mp
          (not_passes_of_hexDigit (hexDigit_of_isDigit
            (hNumeral.isDigit d (List.mem_cons_self ..))))
        have hStop : ∀ c ∈ (sign ++ body).head?,
            isSpace c = false := by
          rw [hBody]
          rcases hSign with rfl | rfl | rfl
          · simpa using hPlain.1
          · simp [isSpace]
          · simp [isSpace]
        have hDrop := (Scanning.takeWhile_dropWhile_iff.mpr
          ⟨rfl, hSpaces, hStop⟩).2
        rw [List.append_assoc, hDrop]
        have hCut : signOf (sign ++ body) =
            (decide (sign = ['-']), body) := by
          rcases hSign with rfl | rfl | rfl
          · rw [hBody]
            exact signOf_of_plain hPlain.2.1 hPlain.2.2
          · rfl
          · rfl
        rw [hCut]
        exact stoiUnsigned_eq_ok.mpr ⟨_, hNumeral⟩

------------------------------------------------------------
-- Hexadecimal Digits
------------------------------------------------------------

/- Digits have a value. -/
theorem hexValue_isSome
    {c : Char} :
    (hexValue c).isSome ↔ HexDigit c := by
  unfold hexValue HexDigit
  simp only [Bool.and_eq_true, decide_eq_true_eq]
  split
  next hDecimal => simp [hDecimal]
  next hDecimal =>
    split
    next hLower => simp [hLower]
    next hLower =>
      split
      next hUpper => simp [hUpper]
      next hUpper => simp [hDecimal, hLower, hUpper]

/- The digit zero alone has the value zero. -/
theorem hexValue_eq_zero
    {c : Char}
    (hZero : hexValue c = some 0) :
    c = '0' := by
  unfold hexValue at hZero
  simp only [Bool.and_eq_true, decide_eq_true_eq] at hZero
  split at hZero
  next hDecimal =>
    have hLow : '0'.toNat ≤ c.toNat := hDecimal.1
    have hNone := Option.some.inj hZero
    apply Char.toNat_inj.mp
    omega
  next =>
    split at hZero
    · simp at hZero
    · split at hZero
      · simp at hZero
      · cases hZero

/-
  The pairs in which a stream finds a number: a digit that
  something is passed over for, or one that comes first,
  whatever follows it.
-/
def ReadsPair
    (first second : Char) : Prop :=
  (Passes first ∧ HexDigit second) ∨
    (HexDigit first ∧
      ¬ (first = '0' ∧ (second = 'x' ∨ second = 'X')))

/- A byte is two digits, or passes as one. -/
theorem readHexByte_isSome
    {first second : Char} :
    (readHexByte first second).isSome ↔
      ReadsPair first second := by
  by_cases hPasses : Passes first
  · have hNot : ¬ HexDigit first :=
      fun hDigit => not_passes_of_hexDigit hDigit hPasses
    have hRead : (readHexByte first second).isSome =
        (hexValue second).isSome := by
      unfold readHexByte
      rcases hPasses with hSpace | rfl | rfl
      · rw [if_pos hSpace, Option.isSome_map]
      · rw [if_neg (by decide), if_pos rfl, Option.isSome_map]
      · rw [if_neg (by decide), if_neg (by decide), if_pos rfl]
        cases hexValue second with
        | none => rfl
        | some value => rfl
    rw [hRead, hexValue_isSome]
    simp [ReadsPair, hPasses, hNot]
  · have hPlain := not_passes_iff.mp hPasses
    unfold readHexByte ReadsPair
    rw [if_neg hPlain.1, if_neg hPlain.2.1,
      if_neg hPlain.2.2, ← hexValue_isSome (c := first)]
    cases hFirst : hexValue first with
    | none => simp [hPasses]
    | some high =>
        cases hSecond : hexValue second with
        | some low =>
            have hDigit : HexDigit second :=
              hexValue_isSome.mp (by simp [hSecond])
            have hNot : ¬ (second = 'x' ∨ second = 'X') := by
              rintro (rfl | rfl)
              · exact absurd hDigit (by decide)
              · exact absurd hDigit (by decide)
            simp [hPasses, hNot]
        | none =>
            have hZero : high = 0 ↔ first = '0' := by
              constructor
              · rintro rfl
                exact hexValue_eq_zero hFirst
              · rintro rfl
                cases hFirst
                rfl
            by_cases hPrefix : first = '0' ∧
                (second = 'x' ∨ second = 'X')
            · rcases hPrefix with ⟨rfl, hMark⟩
              simp [hPasses, hMark, hZero]
            · have hRead : ¬ (high = 0 ∧
                  (second = 'x' ∨ second = 'X')) := by
                rw [hZero]
                exact hPrefix
              simp [hPasses, hPrefix, hRead]

/- `from_hex` succeeds when each pair is read. -/
theorem fromHex_isSome :
    (fromHex text).isSome ↔
      Scanning.Pairs ReadsPair text := by
  induction text using fromHex.induct with
  | case1 => exact iff_of_true rfl Scanning.Pairs.nil
  | case2 c =>
      refine iff_of_false (by simp [fromHex]) ?_
      rintro ⟨⟩
  | case3 first second rest hByte =>
      rw [Scanning.pairs_cons_cons, ← readHexByte_isSome,
        fromHex, hByte]
      simp
  | case4 first second rest byte hByte ih =>
      rw [Scanning.pairs_cons_cons, ← ih,
        ← readHexByte_isSome, fromHex, hByte]
      simp

/- Two characters a byte. -/
theorem fromHex_length
    {data : List UInt8}
    (hRead : fromHex text = some data) :
    text.length = 2 * data.length := by
  induction text using fromHex.induct generalizing data with
  | case1 =>
      cases hRead
      rfl
  | case2 c => cases hRead
  | case3 first second rest hByte =>
      rw [fromHex, hByte] at hRead
      cases hRead
  | case4 first second rest byte hByte ih =>
      rw [fromHex, hByte, Option.map_eq_some_iff] at hRead
      rcases hRead with ⟨later, hLater, rfl⟩
      rw [List.length_cons, List.length_cons,
        List.length_cons, ih hLater]
      omega

/-
  `to_hex` writes each byte as the stream formats it: in
  base sixteen, filled up with zeros to two digits.
-/
theorem toHex_eq_formatted
    (data : List UInt8) :
    toHex data = data.flatMap fun byte =>
      (Nat.toDigits 16 byte.toNat).leftpad 2 '0' := by
  have hEach : ∀ value < 256,
      [hexDigit (value / 16), hexDigit (value % 16)] =
        (Nat.toDigits 16 value).leftpad 2 '0' := by
    decide +kernel
  unfold toHex
  congr 1
  funext byte
  exact hEach _ byte.toNat_lt

/- A byte is read back from its two digits. -/
theorem readHexByte_hexDigit
    (byte : UInt8) :
    readHexByte (hexDigit (byte.toNat / 16))
        (hexDigit (byte.toNat % 16)) = some byte := by
  have hDigit : ∀ value < 16,
      hexValue (hexDigit value) = some value ∧
        ¬ Passes (hexDigit value) := by
    decide
  have hByte := byte.toNat_lt
  have hHigh := hDigit (byte.toNat / 16) (by omega)
  have hLow := hDigit (byte.toNat % 16) (by omega)
  have hPlain := not_passes_iff.mp hHigh.2
  unfold readHexByte
  rw [if_neg hPlain.1, if_neg hPlain.2.1,
    if_neg hPlain.2.2, hHigh.1, hLow.1]
  dsimp only
  rw [show byte.toNat / 16 * 16 + byte.toNat % 16 =
    byte.toNat by omega, UInt8.ofNat_toNat]

/- What is written is ASCII. -/
theorem ascii_of_hexDigit
    {c : Char}
    (hDigit : HexDigit c) :
    c.toNat < 128 := by
  rcases hDigit with ⟨_, hHigh⟩ | ⟨_, hHigh⟩ | ⟨_, hHigh⟩
  · exact Nat.lt_of_le_of_lt hHigh (by decide)
  · exact Nat.lt_of_le_of_lt hHigh (by decide)
  · exact Nat.lt_of_le_of_lt hHigh (by decide)

/- `to_hex` writes nothing but digits. -/
theorem toHex_hexDigit
    (data : List UInt8) :
    ∀ c ∈ toHex data, HexDigit c := by
  have hDigit : ∀ value < 16, HexDigit (hexDigit value) := by
    decide
  intro c hc
  rcases List.mem_flatMap.mp hc with ⟨byte, _, hPair⟩
  have hByte := byte.toNat_lt
  simp only [List.mem_cons, List.not_mem_nil, or_false]
    at hPair
  rcases hPair with rfl | rfl
  · exact hDigit _ (by omega)
  · exact hDigit _ (by omega)

/- Whatever `to_hex` writes, `from_hex` reads. -/
theorem fromHex_toHex
    (data : List UInt8) :
    fromHex (toHex data) = some data := by
  induction data with
  | nil => rfl
  | cons byte data ih =>
      have hCons : toHex (byte :: data) =
          hexDigit (byte.toNat / 16) ::
            hexDigit (byte.toNat % 16) :: toHex data :=
        rfl
      rw [hCons, fromHex, readHexByte_hexDigit, ih]
      rfl

end PasswordHasher

end Server

end Poker

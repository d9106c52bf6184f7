import AsciiPoker.Common.Json.Grammar

/-
  The strings that the lexer reads.

  Main declarations:
    * `Lexer.scanStringTurn_char`,
      `Lexer.of_scanStringTurn_char`
    * `Lexer.scanString_of_text`, `Lexer.of_scanString`
-/

namespace Poker

namespace Json

namespace Lexer

variable {lexer lexer' : Lexer}
variable {b : UInt8}
variable {text rest : List UInt8}

------------------------------------------------------------
-- Input
------------------------------------------------------------

/- A byte is taken off the input. -/
@[simp] theorem get_ia
    (lexer : Lexer) :
    lexer.get.ia = lexer.ia.tail := by
  unfold get
  cases lexer.ia with
  | nil => rfl
  | cons b ia => rfl

/- It is the current one then. -/
@[simp] theorem get_current
    (lexer : Lexer) :
    lexer.get.current = lexer.ia.head? := by
  unfold get
  cases lexer.ia with
  | nil => rfl
  | cons b ia => rfl

/- It is not stored yet. -/
@[simp] theorem get_tokenBuffer
    (lexer : Lexer) :
    lexer.get.tokenBuffer = lexer.tokenBuffer := by
  unfold get
  cases lexer.ia with
  | nil => rfl
  | cons b ia => rfl

/- But it belongs to the text of the token. -/
@[simp] theorem get_tokenString
    (lexer : Lexer) :
    lexer.get.tokenString =
      lexer.tokenString ++ lexer.ia.head?.toList := by
  unfold get
  cases lexer.ia with
  | nil => exact (List.append_nil _).symm
  | cons b ia => rfl

/- The end of the input is counted, too. -/
@[simp] theorem get_charsReadTotal
    (lexer : Lexer) :
    lexer.get.position.charsReadTotal =
      lexer.position.charsReadTotal + 1 := by
  unfold get
  cases lexer.ia with
  | nil => rfl
  | cons b ia =>
      dsimp only
      split
      · rfl
      · rfl

/- To store a byte reads none. -/
@[simp] theorem add_ia
    (lexer : Lexer)
    (b : UInt8) :
    (lexer.add b).ia = lexer.ia := rfl

/- It is the last one then. -/
@[simp] theorem add_tokenBuffer
    (lexer : Lexer)
    (b : UInt8) :
    (lexer.add b).tokenBuffer = lexer.tokenBuffer ++ [b] :=
  rfl

/- The same of the current byte. -/
@[simp] theorem addCurrent_ia
    (lexer : Lexer) :
    lexer.addCurrent.ia = lexer.ia := rfl

/- At the end of the input there is none to store. -/
@[simp] theorem addCurrent_tokenBuffer
    (lexer : Lexer) :
    lexer.addCurrent.tokenBuffer =
      lexer.tokenBuffer ++ lexer.current.toList := rfl

/- And of the bytes of a code point. -/
@[simp] theorem addCodepoint_ia
    (lexer : Lexer)
    (codepoint : Nat) :
    (lexer.addCodepoint codepoint).ia = lexer.ia := rfl

/- They are stored as UTF-8. -/
@[simp] theorem addCodepoint_tokenBuffer
    (lexer : Lexer)
    (codepoint : Nat) :
    (lexer.addCodepoint codepoint).tokenBuffer =
      lexer.tokenBuffer ++ codepointBytes codepoint := rfl

/- A failure leaves the rest of the input. -/
@[simp] theorem fail_ia
    (lexer : Lexer)
    (message : String) :
    (lexer.fail message).ia = lexer.ia := rfl

/- A token starts at the byte that was read last. -/
@[simp] theorem reset_ia
    (lexer : Lexer) :
    lexer.reset.ia = lexer.ia := rfl

/- Nothing of it is stored. -/
@[simp] theorem reset_tokenBuffer
    (lexer : Lexer) :
    lexer.reset.tokenBuffer = [] := rfl

------------------------------------------------------------
-- Code Points
------------------------------------------------------------

/- Digits and letters of both cases. -/
theorem hexValue_eq_some
    {n : Nat} :
    hexValue b = some n ↔ HexDigit b n := by
  have hOf : ∀ m, b.toNat = m → b = UInt8.ofNat m := by
    rintro m rfl
    exact UInt8.ofNat_toNat.symm
  constructor
  · unfold hexValue
    simp only [UInt8.le_iff_toNat_le, UInt8.reduceToNat]
    split_ifs with hDecimal hCapital hSmall
    · rw [Option.some.injEq]
      rintro rfl
      have hChar : ∀ n < 10,
          (Nat.digitChar n).toNat = n + 0x30 := by
        decide
      refine ⟨by omega, .inl (hOf _ ?_)⟩
      rw [hChar _ (by omega)]
      omega
    · rw [Option.some.injEq]
      rintro rfl
      have hChar : ∀ n < 16, 10 ≤ n →
          (Nat.digitChar n).toUpper.toNat = n + 0x37 := by
        decide
      refine ⟨by omega, .inr (hOf _ ?_)⟩
      rw [hChar _ (by omega) (by omega)]
      omega
    · rw [Option.some.injEq]
      rintro rfl
      have hChar : ∀ n < 16, 10 ≤ n →
          (Nat.digitChar n).toNat = n + 0x57 := by
        decide
      refine ⟨by omega, .inl (hOf _ ?_)⟩
      rw [hChar _ (by omega) (by omega)]
      omega
    · exact fun hNone => nomatch hNone
  · have hEach : ∀ n < 16,
        hexValue (UInt8.ofNat (Nat.digitChar n).toNat) =
          some n ∧
        hexValue (UInt8.ofNat
          (Nat.digitChar n).toUpper.toNat) = some n := by
      decide
    rintro ⟨hSmall, rfl | rfl⟩
    · exact (hEach n hSmall).1
    · exact (hEach n hSmall).2

/- One digit is read and shifted into its place. -/
theorem getCodepointLoop_cons
    {factor codepoint digit : Nat}
    {factors : List Nat}
    (hInput : lexer.ia = b :: rest)
    (hDigit : HexDigit b digit) :
    getCodepointLoop (factor :: factors) codepoint lexer =
      getCodepointLoop factors
        (codepoint + digit <<< factor) lexer.get := by
  have hValue : lexer.get.current.bind hexValue =
      some digit := by
    rw [get_current, hInput]
    exact hexValue_eq_some.mpr hDigit
  rw [getCodepointLoop, hValue]

/- Conversely, what was found began with a digit. -/
theorem of_getCodepointLoop_cons
    {factor codepoint n : Nat}
    {factors : List Nat}
    (hLoop : getCodepointLoop (factor :: factors) codepoint
      lexer = (some n, lexer')) :
    ∃ b rest digit, lexer.ia = b :: rest ∧
      HexDigit b digit ∧
      getCodepointLoop factors (codepoint + digit <<< factor)
        lexer.get = (some n, lexer') := by
  rw [getCodepointLoop, get_current] at hLoop
  cases hInput : lexer.ia with
  | nil =>
      rw [hInput] at hLoop
      cases hLoop
  | cons b rest =>
      rw [hInput] at hLoop
      dsimp only [List.head?_cons, Option.bind_some] at hLoop
      cases hDigit : hexValue b with
      | none =>
          rw [hDigit] at hLoop
          cases hLoop
      | some digit =>
          rw [hDigit] at hLoop
          exact ⟨b, rest, digit, rfl,
            hexValue_eq_some.mp hDigit, hLoop⟩

/- Four digits are read as their number. -/
theorem getCodepoint_of_digits
    {digits : List UInt8}
    {n : Nat}
    (hDigits : HexNumber digits n)
    (hInput : lexer.ia = digits ++ rest) :
    ∃ lexer', lexer.getCodepoint = (some n, lexer') ∧
      lexer'.ia = rest ∧
      lexer'.tokenBuffer = lexer.tokenBuffer := by
  rcases hDigits with ⟨b₁, b₂, b₃, b₄, n₁, n₂, n₃, n₄, rfl,
    h₁, h₂, h₃, h₄, rfl⟩
  refine ⟨lexer.get.get.get.get, ?_, ?_, ?_⟩
  · rw [getCodepoint,
      getCodepointLoop_cons hInput h₁,
      getCodepointLoop_cons (by rw [get_ia, hInput]; rfl) h₂,
      getCodepointLoop_cons
        (by rw [get_ia, get_ia, hInput]; rfl) h₃,
      getCodepointLoop_cons
        (by rw [get_ia, get_ia, get_ia, hInput]; rfl) h₄,
      getCodepointLoop]
    simp only [Nat.shiftLeft_eq]
    congr 2
    omega
  · simp [hInput]
  · simp

/- And a number is that of four digits. -/
theorem of_getCodepoint
    {n : Nat}
    (hCodepoint : lexer.getCodepoint = (some n, lexer')) :
    ∃ digits, HexNumber digits n ∧
      lexer.ia = digits ++ lexer'.ia ∧
      lexer'.tokenBuffer = lexer.tokenBuffer := by
  rcases of_getCodepointLoop_cons hCodepoint with
    ⟨b₁, rest₁, n₁, hInput₁, h₁, hLoop₁⟩
  rcases of_getCodepointLoop_cons hLoop₁ with
    ⟨b₂, rest₂, n₂, hInput₂, h₂, hLoop₂⟩
  rcases of_getCodepointLoop_cons hLoop₂ with
    ⟨b₃, rest₃, n₃, hInput₃, h₃, hLoop₃⟩
  rcases of_getCodepointLoop_cons hLoop₃ with
    ⟨b₄, rest₄, n₄, hInput₄, h₄, hLoop₄⟩
  rw [getCodepointLoop, Prod.mk.injEq] at hLoop₄
  rcases hLoop₄ with ⟨hNumber, rfl⟩
  simp only [get_ia, hInput₁, List.tail_cons] at hInput₂
  simp only [get_ia, hInput₁, hInput₂, List.tail_cons]
    at hInput₃
  simp only [get_ia, hInput₁, hInput₂, hInput₃,
    List.tail_cons] at hInput₄
  refine ⟨[b₁, b₂, b₃, b₄], ⟨b₁, b₂, b₃, b₄, n₁, n₂, n₃, n₄,
    rfl, h₁, h₂, h₃, h₄, ?_⟩, ?_, ?_⟩
  · simp only [Nat.shiftLeft_eq, Option.some.injEq]
      at hNumber
    omega
  · simp [hInput₁, hInput₂, hInput₃, hInput₄]
  · simp

------------------------------------------------------------
-- Characters as They Are
------------------------------------------------------------

/- Bytes in range are all stored. -/
theorem nextByteInRangeLoop_of_forall₂
    {ranges : List (UInt8 × UInt8)}
    (hRanges : List.Forall₂ Utf8.InRange text ranges)
    (hInput : lexer.ia = text ++ rest) :
    ∃ lexer', nextByteInRangeLoop ranges lexer =
        (true, lexer') ∧
      lexer'.ia = rest ∧
      lexer'.tokenBuffer = lexer.tokenBuffer ++ text := by
  induction hRanges generalizing lexer with
  | nil =>
      exact ⟨lexer, rfl, hInput, (List.append_nil _).symm⟩
  | @cons b range text ranges hIn hRest ih =>
      have hGet : lexer.get.addCurrent.ia = text ++ rest := by
        rw [addCurrent_ia, get_ia, hInput]
        rfl
      rcases ih hGet with ⟨lexer', hLoop, hIa, hBuffer⟩
      have hCurrent : lexer.get.current = some b := by
        rw [get_current, hInput]
        rfl
      refine ⟨lexer', ?_, hIa, ?_⟩
      · rw [nextByteInRangeLoop, if_pos ⟨b, hCurrent, hIn⟩,
          hLoop]
      · rw [hBuffer, addCurrent_tokenBuffer, get_tokenBuffer,
          hCurrent, Option.toList_some, List.append_assoc,
          List.singleton_append]

/- Nothing else gets through. -/
theorem of_nextByteInRangeLoop
    {ranges : List (UInt8 × UInt8)}
    (hLoop : nextByteInRangeLoop ranges lexer =
      (true, lexer')) :
    ∃ text, List.Forall₂ Utf8.InRange text ranges ∧
      lexer.ia = text ++ lexer'.ia ∧
      lexer'.tokenBuffer = lexer.tokenBuffer ++ text := by
  induction ranges generalizing lexer with
  | nil =>
      cases hLoop
      exact ⟨[], .nil, rfl, (List.append_nil _).symm⟩
  | cons range ranges ih =>
      rw [nextByteInRangeLoop] at hLoop
      split at hLoop
      case isFalse => cases hLoop
      case isTrue hCurrent =>
        rcases hCurrent with ⟨b, hCurrent, hIn⟩
        rcases ih hLoop with ⟨text, hRest, hIa, hBuffer⟩
        rw [Option.mem_def] at hCurrent
        rw [addCurrent_tokenBuffer, get_tokenBuffer,
          hCurrent] at hBuffer
        rw [addCurrent_ia, get_ia] at hIa
        rw [get_current, List.head?_eq_some_iff] at hCurrent
        rcases hCurrent with ⟨tail, hInput⟩
        refine ⟨b :: text, .cons hIn hRest, ?_, ?_⟩
        · rw [hInput] at hIa ⊢
          rw [List.cons_append, ← hIa, List.tail_cons]
        · rw [hBuffer, Option.toList_some, List.append_assoc,
            List.singleton_append]

/- A code point is translated into its character's bytes. -/
theorem codepointBytes_toNat
    (c : Char) :
    codepointBytes c.toNat = String.utf8EncodeChar c := by
  have hSmall : c.toNat < 0x110000 := by
    have hValid : c.toNat < 0xD800 ∨
      0xDFFF < c.toNat ∧ c.toNat < 0x110000 := c.valid
    omega
  have hVal : c.val.toNat = c.toNat := rfl
  have hTwo : ∀ n < 64, 0xC0 ||| n = n + 0xC0 := by
    intro n hn
    rw [Nat.add_comm]
    exact (Nat.two_pow_add_eq_or_of_lt (i := 6) hn 3).symm
  have hThree : ∀ n < 32, 0xE0 ||| n = n + 0xE0 := by
    intro n hn
    rw [Nat.add_comm]
    exact (Nat.two_pow_add_eq_or_of_lt (i := 5) hn 7).symm
  have hFour : ∀ n < 16, 0xF0 ||| n = n + 0xF0 := by
    intro n hn
    rw [Nat.add_comm]
    exact (Nat.two_pow_add_eq_or_of_lt (i := 4) hn 15).symm
  have hTail : ∀ n, 0x80 ||| n &&& 0x3F = n % 64 + 0x80 := by
    intro n
    have hMod : n &&& 0x3F = n % 64 :=
      Nat.and_two_pow_sub_one_eq_mod n 6
    have hLess : n % 64 < 2 ^ 7 := by
      omega
    rw [hMod, Nat.add_comm]
    exact (Nat.two_pow_add_eq_or_of_lt hLess 1).symm
  unfold codepointBytes String.utf8EncodeChar
  simp only [hTail, Nat.shiftRight_eq_div_pow, Nat.reducePow,
    hVal]
  split_ifs
  all_goals first | omega | skip
  · rfl
  · rw [hTwo _ (by omega), Nat.mod_eq_of_lt (b := 32)
      (by omega)]
  · rw [hThree _ (by omega), Nat.mod_eq_of_lt (b := 16)
      (by omega)]
  · rw [hFour _ (by omega), Nat.mod_eq_of_lt (b := 8)
      (by omega)]

/- Characters of ASCII differ as bytes. -/
theorem ofNat_ne_of_char
    {c d : Char}
    (hAscii : c.toNat ≤ 0x7F)
    (hSmall : d.toNat ≤ 0x7F)
    (hNe : c ≠ d) :
    UInt8.ofNat c.toNat ≠ UInt8.ofNat d.toNat := by
  intro hEq
  rw [← UInt8.toNat_inj, UInt8.toNat_ofNat',
    UInt8.toNat_ofNat'] at hEq
  refine hNe (Char.toNat_inj.mp ?_)
  omega

/- A character of one byte. -/
theorem scanStringTurn_ascii
    {c : Char}
    (hPrintable : 0x20 ≤ c.toNat)
    (hAscii : c.toNat ≤ 0x7F)
    (hQuote : c ≠ '"')
    (hBackslash : c ≠ '\\')
    (hInput : lexer.ia = UInt8.ofNat c.toNat :: rest) :
    ∃ lexer', lexer.scanStringTurn = (none, lexer') ∧
      lexer'.ia = rest ∧
      lexer'.tokenBuffer =
        lexer.tokenBuffer ++ [UInt8.ofNat c.toNat] := by
  have hCurrent : lexer.get.current =
      some (UInt8.ofNat c.toNat) := by
    rw [get_current, hInput]
    rfl
  have hQuote' : UInt8.ofNat c.toNat ≠ 0x22 :=
    ofNat_ne_of_char (d := '"') hAscii (by decide) hQuote
  have hBackslash' : UInt8.ofNat c.toNat ≠ 0x5C :=
    ofNat_ne_of_char (d := '\\') hAscii (by decide)
      hBackslash
  have hLarge : ¬ UInt8.ofNat c.toNat ≤ 0x1F := by
    rw [UInt8.le_iff_toNat_le, UInt8.toNat_ofNat']
    simp only [UInt8.reduceToNat]
    omega
  have hSmall : UInt8.ofNat c.toNat ≤ 0x7F := by
    rw [UInt8.le_iff_toNat_le, UInt8.toNat_ofNat']
    simp only [UInt8.reduceToNat]
    omega
  refine ⟨lexer.get.addCurrent, ?_, ?_, ?_⟩
  · rw [scanStringTurn, hCurrent]
    dsimp only
    rw [if_neg hQuote', if_neg hBackslash', if_neg hLarge,
      if_pos hSmall]
  · simp [hInput]
  · simp [hInput]

/- A character of more, by the table of what may follow. -/
theorem scanStringTurn_wellFormed
    {lead : UInt8}
    {tail : List UInt8}
    (hLead : 0x7F < lead)
    (hWellFormed : Utf8.WellFormed lead tail)
    (hInput : lexer.ia = lead :: tail ++ rest) :
    ∃ lexer', lexer.scanStringTurn = (none, lexer') ∧
      lexer'.ia = rest ∧
      lexer'.tokenBuffer =
        lexer.tokenBuffer ++ lead :: tail := by
  rcases hWellFormed with ⟨ranges, hRanges, hTail⟩
  have hCurrent : lexer.get.current = some lead := by
    rw [get_current, hInput]
    rfl
  have hGet : lexer.get.addCurrent.ia = tail ++ rest := by
    rw [addCurrent_ia, get_ia, hInput]
    rfl
  rcases nextByteInRangeLoop_of_forall₂ hTail hGet with
    ⟨lexer', hLoop, hIa, hBuffer⟩
  have hOther : ∀ d : UInt8, d ≤ 0x7F → lead ≠ d := by
    rintro d hd rfl
    exact absurd hLead (UInt8.not_lt.mpr hd)
  refine ⟨lexer', ?_, hIa, ?_⟩
  · rw [scanStringTurn, hCurrent]
    dsimp only
    rw [if_neg (hOther _ (by decide)),
      if_neg (hOther _ (by decide)), if_neg, if_neg,
      hRanges]
    · dsimp only
      rw [nextByteInRange, hLoop]
    · exact UInt8.not_le.mpr hLead
    · exact UInt8.not_le.mpr
        (UInt8.lt_trans (by decide) hLead)
  · rw [hBuffer, addCurrent_tokenBuffer,
      get_tokenBuffer, hCurrent, Option.toList_some,
      List.append_assoc, List.singleton_append]

/- A printable character is read as it is. -/
theorem scanStringTurn_plain
    {c : Char}
    (hPrintable : 0x20 ≤ c.toNat)
    (hQuote : c ≠ '"')
    (hBackslash : c ≠ '\\')
    (hInput : lexer.ia = String.utf8EncodeChar c ++ rest) :
    ∃ lexer', lexer.scanStringTurn = (none, lexer') ∧
      lexer'.ia = rest ∧
      lexer'.tokenBuffer =
        lexer.tokenBuffer ++ String.utf8EncodeChar c := by
  by_cases hAscii : c.toNat ≤ 0x7F
  · rw [Utf8.encodeChar_of_ascii hAscii] at hInput ⊢
    exact scanStringTurn_ascii hPrintable hAscii hQuote
      hBackslash hInput
  · cases hChar : String.utf8EncodeChar c with
    | nil => exact absurd hChar String.utf8EncodeChar_ne_nil
    | cons lead tail =>
        rw [hChar] at hInput
        have hLead := Utf8.lt_lead_of_char hChar
          (Nat.lt_of_not_le hAscii)
        exact scanStringTurn_wellFormed hLead
          (Utf8.wellFormed_of_char hChar) hInput

------------------------------------------------------------
-- Escapes
------------------------------------------------------------

/- A letter of the table stands for its character. -/
theorem unescape_of_mem
    {letter : UInt8}
    {c : Char}
    (hEscape : (letter, c) ∈ shortEscapes) :
    letter ≠ 0x75 ∧
      ∃ b, unescape letter = some b ∧
        String.utf8EncodeChar c = [b] := by
  have hEach : ∀ entry ∈ shortEscapes,
      entry.1 ≠ 0x75 ∧
        unescape entry.1 =
          (String.utf8EncodeChar entry.2).head? ∧
        (String.utf8EncodeChar entry.2).length = 1 := by
    decide
  rcases hEach _ hEscape with ⟨hLetter, hHead, hLength⟩
  rcases List.length_eq_one_iff.mp hLength with ⟨b, hb⟩
  dsimp only at hb hHead
  rw [hb] at hHead
  exact ⟨hLetter, b, hHead, hb⟩

/- And no other letter for any. -/
theorem exists_of_unescape
    {letter : UInt8}
    (hUnescape : unescape letter = some b) :
    ∃ c, (letter, c) ∈ shortEscapes ∧
      String.utf8EncodeChar c = [b] := by
  unfold unescape at hUnescape
  split at hUnescape
  case h_9 => cases hUnescape
  all_goals cases hUnescape
  · exact ⟨'"', by decide, by decide⟩
  · exact ⟨'\\', by decide, by decide⟩
  · exact ⟨'/', by decide, by decide⟩
  · exact ⟨'\x08', by decide, by decide⟩
  · exact ⟨'\x0C', by decide, by decide⟩
  · exact ⟨'\n', by decide, by decide⟩
  · exact ⟨'\r', by decide, by decide⟩
  · exact ⟨'\t', by decide, by decide⟩

/- A backslash leads to the escapes. -/
theorem scanStringTurn_backslash
    (hInput : lexer.ia = 0x5C :: rest) :
    lexer.scanStringTurn = lexer.get.scanEscape := by
  have hCurrent : lexer.get.current = some 0x5C := by
    rw [get_current, hInput]
    rfl
  rw [scanStringTurn, hCurrent]
  rfl

/- It is scanned as that character. -/
theorem scanEscape_of_mem
    {letter : UInt8}
    {c : Char}
    (hEscape : (letter, c) ∈ shortEscapes)
    (hInput : lexer.ia = letter :: rest) :
    ∃ lexer', lexer.scanEscape = (none, lexer') ∧
      lexer'.ia = rest ∧
      lexer'.tokenBuffer =
        lexer.tokenBuffer ++ String.utf8EncodeChar c := by
  rcases unescape_of_mem hEscape with
    ⟨hLetter, b, hUnescape, hChar⟩
  have hCurrent : lexer.get.current = some letter := by
    rw [get_current, hInput]
    rfl
  refine ⟨lexer.get.add b, ?_, ?_, ?_⟩
  · rw [scanEscape, hCurrent, if_neg (by simpa using hLetter),
      Option.bind_some, hUnescape]
  · simp [hInput]
  · simp [hChar]

/- The letter `u` leads to a code point. -/
theorem scanEscape_u
    (hInput : lexer.ia = 0x75 :: rest) :
    lexer.scanEscape = lexer.get.scanUnicode := by
  rw [scanEscape, get_current, hInput]
  rfl

/- A code point that is a character is read as it. -/
theorem scanUnicode_of_char
    {digits : List UInt8}
    {c : Char}
    (hDigits : HexNumber digits c.toNat)
    (hInput : lexer.ia = digits ++ rest) :
    ∃ lexer', lexer.scanUnicode = (none, lexer') ∧
      lexer'.ia = rest ∧
      lexer'.tokenBuffer =
        lexer.tokenBuffer ++ String.utf8EncodeChar c := by
  rcases getCodepoint_of_digits hDigits hInput with
    ⟨lexer', hCodepoint, hIa, hBuffer⟩
  have hValid : c.toNat < 0xD800 ∨
      0xDFFF < c.toNat ∧ c.toNat < 0x110000 := c.valid
  refine ⟨lexer'.addCodepoint c.toNat, ?_, hIa, ?_⟩
  · rw [scanUnicode, hCodepoint]
    dsimp only
    rw [if_neg (by omega), if_neg (by omega)]
  · rw [addCodepoint_tokenBuffer, hBuffer,
      codepointBytes_toNat]

/- Two surrogates are read as one character. -/
theorem scanUnicode_of_surrogates
    {digits digits' : List UInt8}
    {high low : Nat}
    {c : Char}
    (hHigh : HexNumber digits (0xD800 + high))
    (hLow : HexNumber digits' (0xDC00 + low))
    (hSmall : high < 0x400 ∧ low < 0x400)
    (hChar : c.toNat = 0x10000 + high * 0x400 + low)
    (hInput : lexer.ia =
      digits ++ 0x5C :: 0x75 :: digits' ++ rest) :
    ∃ lexer', lexer.scanUnicode = (none, lexer') ∧
      lexer'.ia = rest ∧
      lexer'.tokenBuffer =
        lexer.tokenBuffer ++ String.utf8EncodeChar c := by
  rw [List.append_assoc] at hInput
  rcases getCodepoint_of_digits hHigh hInput with
    ⟨first, hFirst, hIa, hBuffer⟩
  have hSecondInput : first.get.get.ia = digits' ++ rest := by
    rw [get_ia, get_ia, hIa]
    rfl
  rcases getCodepoint_of_digits hLow hSecondInput with
    ⟨second, hSecond, hIa', hBuffer'⟩
  refine ⟨second.addCodepoint c.toNat, ?_, hIa', ?_⟩
  · have hBackslash : first.get.current = some 0x5C := by
      rw [get_current, hIa]
      rfl
    have hLetter : first.get.get.current = some 0x75 := by
      rw [get_current, get_ia, hIa]
      rfl
    have hNumber : (0xD800 + high) <<< 10 + (0xDC00 + low) -
        0x35FDC00 = c.toNat := by
      rw [Nat.shiftLeft_eq]
      omega
    rw [scanUnicode, hFirst]
    dsimp only
    rw [if_pos (by omega), scanLowSurrogate,
      if_neg (not_not_intro hBackslash),
      if_neg (not_not_intro hLetter), hSecond]
    dsimp only
    rw [if_pos (by omega), hNumber]
  · rw [addCodepoint_tokenBuffer, hBuffer', get_tokenBuffer,
      get_tokenBuffer, hBuffer, codepointBytes_toNat]

------------------------------------------------------------
-- Turns
------------------------------------------------------------

/- A turn reads a character. -/
theorem scanStringTurn_char
    {c : Char}
    (hChar : CharText text c)
    (hInput : lexer.ia = text ++ rest) :
    ∃ lexer', lexer.scanStringTurn = (none, lexer') ∧
      lexer'.ia = rest ∧
      lexer'.tokenBuffer =
        lexer.tokenBuffer ++ String.utf8EncodeChar c := by
  cases hChar with
  | plain hPrintable hQuote hBackslash =>
      exact scanStringTurn_plain hPrintable hQuote hBackslash
        hInput
  | @short letter c hEscape =>
      have hGet : lexer.get.ia = letter :: rest := by
        rw [get_ia, hInput]
        rfl
      rw [scanStringTurn_backslash hInput,
        ← get_tokenBuffer lexer]
      exact scanEscape_of_mem hEscape hGet
  | @unicode digits c hDigits =>
      have hGet : lexer.get.ia = 0x75 :: (digits ++ rest) := by
        rw [get_ia, hInput]
        rfl
      have hGet' : lexer.get.get.ia = digits ++ rest := by
        rw [get_ia, hGet]
        rfl
      rw [scanStringTurn_backslash hInput, scanEscape_u hGet,
        ← get_tokenBuffer lexer, ← get_tokenBuffer lexer.get]
      exact scanUnicode_of_char hDigits hGet'
  | @surrogates digits digits' high low c hHigh hLow hSmall
      hValue =>
      have hGet : lexer.get.ia = 0x75 ::
          (digits ++ 0x5C :: 0x75 :: digits' ++ rest) := by
        rw [get_ia, hInput]
        rfl
      have hGet' : lexer.get.get.ia =
          digits ++ 0x5C :: 0x75 :: digits' ++ rest := by
        rw [get_ia, hGet]
        rfl
      rw [scanStringTurn_backslash hInput, scanEscape_u hGet,
        ← get_tokenBuffer lexer, ← get_tokenBuffer lexer.get]
      exact scanUnicode_of_surrogates hHigh hLow hSmall
        hValue hGet'

/- Or the closing quotation mark. -/
theorem scanStringTurn_quote
    (hInput : lexer.ia = 0x22 :: rest) :
    lexer.scanStringTurn = (some .valueString, lexer.get) := by
  have hCurrent : lexer.get.current = some 0x22 := by
    rw [get_current, hInput]
    rfl
  rw [scanStringTurn, hCurrent]
  rfl

------------------------------------------------------------
-- What a Turn Has Read
------------------------------------------------------------

/- The lexer has read a character from the text and kept it. -/
def HasRead
    (lexer lexer' : Lexer)
    (text : List UInt8)
    (c : Char) : Prop :=
  lexer.ia = text ++ lexer'.ia ∧
    lexer'.tokenBuffer =
      lexer.tokenBuffer ++ String.utf8EncodeChar c

/- Four digits are 16 bits. -/
theorem hexNumber_lt
    {digits : List UInt8}
    {n : Nat}
    (hDigits : HexNumber digits n) :
    n < 0x10000 := by
  rcases hDigits with ⟨b₁, b₂, b₃, b₄, n₁, n₂, n₃, n₄, _,
    h₁, h₂, h₃, h₄, rfl⟩
  have hSmall := And.intro (And.intro h₁.1 h₂.1)
    (And.intro h₃.1 h₄.1)
  omega

/- What is no surrogate is a character. -/
theorem exists_char_of_codepoint
    {n : Nat}
    (hValid : n < 0xD800 ∨ 0xDFFF < n ∧ n < 0x110000) :
    ∃ c : Char, c.toNat = n ∧
      codepointBytes n = String.utf8EncodeChar c := by
  rcases Utf8.exists_char_toNat_eq hValid with ⟨c, hVal⟩
  have hNat : c.toNat = n := hVal
  exact ⟨c, hNat, by rw [← hNat, codepointBytes_toNat]⟩

/- The second half, if the string goes on so. -/
theorem of_scanLowSurrogate
    {digits : List UInt8}
    {high : Nat}
    {result : Option TokenType}
    (hDigits : HexNumber digits (0xD800 + high))
    (hSmall : high < 0x400)
    (hScan : lexer.scanLowSurrogate (0xD800 + high) =
      (result, lexer')) :
    result = some .parseError ∨
      result = none ∧ ∃ digits' c,
        CharText (0x5C :: 0x75 :: digits ++
          0x5C :: 0x75 :: digits') c ∧
        lexer.HasRead lexer' (0x5C :: 0x75 :: digits') c := by
  unfold scanLowSurrogate at hScan
  dsimp only at hScan
  split at hScan
  case isTrue =>
    cases hScan
    exact .inl rfl
  case isFalse hBackslash =>
    split at hScan
    case isTrue =>
      cases hScan
      exact .inl rfl
    case isFalse hLetter =>
      rw [not_not, get_current, List.head?_eq_some_iff]
        at hBackslash
      rcases hBackslash with ⟨afterBackslash, hFirst⟩
      rw [not_not, get_current, get_ia, hFirst,
        List.tail_cons, List.head?_eq_some_iff] at hLetter
      rcases hLetter with ⟨afterLetter, hSecond⟩
      subst hSecond
      split at hScan
      case h_1 =>
        cases hScan
        exact .inl rfl
      case h_2 codepoint2 second hCodepoint =>
        rcases of_getCodepoint hCodepoint with
          ⟨digits', hDigits', hIa, hBuffer⟩
        split at hScan
        case isFalse =>
          cases hScan
          exact .inl rfl
        case isTrue hLow =>
          cases hScan
          obtain ⟨low, rfl⟩ : ∃ low, codepoint2 =
              0xDC00 + low :=
            ⟨codepoint2 - 0xDC00, by omega⟩
          have hNumber : (0xD800 + high) <<< 10 +
              (0xDC00 + low) - 0x35FDC00 =
                0x10000 + high * 0x400 + low := by
            rw [Nat.shiftLeft_eq]
            omega
          rcases exists_char_of_codepoint
            (n := 0x10000 + high * 0x400 + low) (by omega)
            with ⟨c, hChar, hBytes⟩
          refine .inr ⟨rfl, digits', c,
            .surrogates hDigits hDigits' (by omega) hChar,
            ?_, ?_⟩
          · rw [get_ia, get_ia, hFirst] at hIa
            rw [hFirst, addCodepoint_ia, List.cons_append,
              List.cons_append, ← hIa]
            rfl
          · rw [addCodepoint_tokenBuffer, hBuffer,
              get_tokenBuffer, get_tokenBuffer, hNumber,
              hBytes]

/- A code point alone, or the first of two halves. -/
theorem of_scanUnicode
    {result : Option TokenType}
    (hScan : lexer.scanUnicode = (result, lexer')) :
    result = some .parseError ∨
      result = none ∧ ∃ text c,
        CharText (0x5C :: 0x75 :: text) c ∧
        lexer.HasRead lexer' text c := by
  unfold scanUnicode at hScan
  split at hScan
  case h_1 =>
    cases hScan
    exact .inl rfl
  case h_2 codepoint1 first hCodepoint =>
    rcases of_getCodepoint hCodepoint with
      ⟨digits, hDigits, hIa, hBuffer⟩
    split at hScan
    case isTrue hSurrogate =>
      obtain ⟨high, rfl⟩ : ∃ high, codepoint1 =
          0xD800 + high :=
        ⟨codepoint1 - 0xD800, by omega⟩
      rcases of_scanLowSurrogate hDigits (by omega) hScan with
        hError | ⟨hNone, digits', c, hChar, hIa', hBuffer'⟩
      · exact .inl hError
      · refine .inr ⟨hNone, digits ++ 0x5C :: 0x75 :: digits',
          c, hChar, ?_, ?_⟩
        · rw [hIa, hIa', List.append_assoc]
        · rw [hBuffer', hBuffer]
    case isFalse hHigh =>
      split at hScan
      case isTrue =>
        cases hScan
        exact .inl rfl
      case isFalse hLow =>
        cases hScan
        have hSmall := hexNumber_lt hDigits
        rcases exists_char_of_codepoint (n := codepoint1)
          (by omega) with ⟨c, rfl, hBytes⟩
        refine .inr ⟨rfl, digits, c, .unicode hDigits, hIa, ?_⟩
        rw [addCodepoint_tokenBuffer, hBuffer, hBytes]

/- What stands behind a backslash is one of these. -/
theorem of_scanEscape
    {result : Option TokenType}
    (hScan : lexer.scanEscape = (result, lexer')) :
    result = some .parseError ∨
      result = none ∧ ∃ text c,
        CharText (0x5C :: text) c ∧
        lexer.HasRead lexer' text c := by
  unfold scanEscape at hScan
  dsimp only at hScan
  split at hScan
  case isTrue hLetter =>
    rw [get_current, List.head?_eq_some_iff] at hLetter
    rcases hLetter with ⟨afterLetter, hInput⟩
    rcases of_scanUnicode hScan with
      hError | ⟨hNone, text, c, hChar, hIa, hBuffer⟩
    · exact .inl hError
    · refine .inr ⟨hNone, 0x75 :: text, c, hChar, ?_, ?_⟩
      · rw [get_ia, hInput, List.tail_cons] at hIa
        rw [hInput, List.cons_append, ← hIa]
      · rw [hBuffer, get_tokenBuffer]
  case isFalse =>
    split at hScan
    case h_2 =>
      cases hScan
      exact .inl rfl
    case h_1 b hUnescape =>
      cases hScan
      rw [Option.bind_eq_some_iff] at hUnescape
      rcases hUnescape with ⟨letter, hCurrent, hUnescape⟩
      rw [get_current, List.head?_eq_some_iff] at hCurrent
      rcases hCurrent with ⟨afterLetter, hInput⟩
      rcases exists_of_unescape hUnescape with
        ⟨c, hEscape, hChar⟩
      refine .inr ⟨rfl, [letter], c, .short hEscape, ?_, ?_⟩
      · rw [add_ia, get_ia, hInput]
        rfl
      · rw [add_tokenBuffer, get_tokenBuffer, hChar]

/- A byte below 0x80 that a turn takes as it is. -/
theorem charText_of_ascii
    (hLarge : ¬ b ≤ 0x1F)
    (hSmall : b ≤ 0x7F)
    (hQuote : b ≠ 0x22)
    (hBackslash : b ≠ 0x5C) :
    ∃ c, CharText [b] c ∧ String.utf8EncodeChar c = [b] := by
  simp only [UInt8.le_iff_toNat_le, UInt8.reduceToNat]
    at hLarge hSmall
  rcases Utf8.exists_char_toNat_eq (v := b.toNat) (by omega)
    with ⟨c, hVal⟩
  have hNat : c.toNat = b.toNat := hVal
  have hChar : String.utf8EncodeChar c = [b] := by
    rw [Utf8.encodeChar_of_ascii (by omega), hNat,
      UInt8.ofNat_toNat]
  refine ⟨c, ?_, hChar⟩
  rw [← hChar]
  refine .plain (by omega) ?_ ?_
  · rintro rfl
    exact hQuote (UInt8.toNat_inj.mp hNat.symm)
  · rintro rfl
    exact hBackslash (UInt8.toNat_inj.mp hNat.symm)

/- A lead from 0x80 on and what follows it. -/
theorem charText_of_wellFormed
    {tail : List UInt8}
    (hLead : ¬ b ≤ 0x7F)
    (hFormed : Utf8.WellFormed b tail) :
    ∃ c, CharText (b :: tail) c ∧
      String.utf8EncodeChar c = b :: tail := by
  rcases hFormed.exists_char with ⟨c, hChar⟩
  have hAscii : ¬ c.toNat ≤ 0x7F := by
    intro hAscii
    rw [Utf8.encodeChar_of_ascii hAscii] at hChar
    rcases List.cons.inj hChar with ⟨rfl, _⟩
    rw [UInt8.le_iff_toNat_le, UInt8.toNat_ofNat'] at hLead
    simp only [UInt8.reduceToNat] at hLead
    omega
  refine ⟨c, ?_, hChar⟩
  rw [← hChar]
  refine .plain (by omega) ?_ ?_
  · rintro rfl
    exact hAscii (by decide)
  · rintro rfl
    exact hAscii (by decide)

/-
  A turn fails, or it reads a character or the closing
  quotation mark.
-/
theorem of_scanStringTurn
    {result : Option TokenType}
    (hTurn : lexer.scanStringTurn = (result, lexer')) :
    result = some .parseError ∨
      (result = some .valueString ∧
        lexer.ia = 0x22 :: lexer'.ia ∧
        lexer'.tokenBuffer = lexer.tokenBuffer) ∨
      (result = none ∧ ∃ text c, CharText text c ∧
        lexer.HasRead lexer' text c) := by
  unfold scanStringTurn at hTurn
  dsimp only at hTurn
  split at hTurn
  case h_1 =>
    cases hTurn
    exact .inl rfl
  case h_2 b hCurrent =>
    have hHead := hCurrent
    rw [get_current, List.head?_eq_some_iff] at hHead
    rcases hHead with ⟨tail, hInput⟩
    split_ifs at hTurn with hQuote hBackslash hControl hAscii
    · cases hTurn
      refine .inr (.inl ⟨rfl, ?_, get_tokenBuffer _⟩)
      rw [get_ia, hInput, hQuote]
      rfl
    · rcases of_scanEscape hTurn with
        hError | ⟨hNone, text, c, hChar, hIa, hBuffer⟩
      · exact .inl hError
      · rw [get_ia, hInput, List.tail_cons] at hIa
        rw [get_tokenBuffer] at hBuffer
        refine .inr (.inr ⟨hNone, 0x5C :: text, c, hChar,
          ?_, hBuffer⟩)
        rw [hInput, hBackslash, hIa, List.cons_append]
    · cases hTurn
      exact .inl rfl
    · cases hTurn
      rcases charText_of_ascii hControl hAscii hQuote
        hBackslash with ⟨c, hText, hChar⟩
      refine .inr (.inr ⟨rfl, [b], c, hText, ?_, ?_⟩)
      · rw [addCurrent_ia, get_ia, hInput]
        rfl
      · rw [addCurrent_tokenBuffer, get_tokenBuffer,
          hCurrent, hChar, Option.toList_some]
    · split at hTurn
      case h_2 =>
        cases hTurn
        exact .inl rfl
      case h_1 ranges hRanges =>
        split at hTurn
        case h_2 =>
          cases hTurn
          exact .inl rfl
        case h_1 lexer'' hLoop =>
          cases hTurn
          rw [nextByteInRange] at hLoop
          rcases of_nextByteInRangeLoop hLoop with
            ⟨others, hOthers, hIa, hBuffer⟩
          rcases charText_of_wellFormed hAscii
            ⟨ranges, hRanges, hOthers⟩ with ⟨c, hText, hChar⟩
          rw [addCurrent_ia, get_ia, hInput,
            List.tail_cons] at hIa
          refine .inr (.inr ⟨rfl, b :: others, c, hText,
            ?_, ?_⟩)
          · rw [hInput, hIa, List.cons_append]
          · rw [hBuffer, addCurrent_tokenBuffer,
              get_tokenBuffer, hCurrent, hChar,
              Option.toList_some, List.append_assoc,
              List.singleton_append]

------------------------------------------------------------
-- Strings
------------------------------------------------------------

/- Every character takes a byte at least. -/
theorem charText_ne_nil
    {c : Char}
    (hChar : CharText text c) :
    text ≠ [] := by
  cases hChar with
  | plain => exact String.utf8EncodeChar_ne_nil
  | short => exact List.cons_ne_nil _ _
  | unicode => exact List.cons_ne_nil _ _
  | surrogates => exact List.cons_ne_nil _ _

/- The loop reads characters up to the quotation mark. -/
theorem scanStringLoop_of_chars
    {cs : List Char}
    {turns : Nat}
    (hChars : Chars text cs)
    (hInput : lexer.ia = text ++ 0x22 :: rest)
    (hTurns : text.length < turns) :
    ∃ lexer', scanStringLoop turns lexer =
        (.valueString, lexer') ∧
      lexer'.ia = rest ∧
      lexer'.tokenBuffer =
        lexer.tokenBuffer ++ Utf8.encode cs := by
  induction hChars generalizing lexer turns with
  | nil =>
      obtain ⟨turns, rfl⟩ := Nat.exists_eq_succ_of_ne_zero
        (Nat.ne_of_gt hTurns)
      refine ⟨lexer.get, ?_, ?_, ?_⟩
      · rw [scanStringLoop, scanStringTurn_quote hInput]
      · rw [get_ia, hInput]
        rfl
      · rw [get_tokenBuffer, Utf8.encode_nil, List.append_nil]
  | @cons unit text c cs hChar hRest ih =>
      rw [List.append_assoc] at hInput
      rcases scanStringTurn_char hChar hInput with
        ⟨middle, hTurn, hIa, hBuffer⟩
      have hLength := List.length_pos_iff.mpr
        (charText_ne_nil hChar)
      rw [List.length_append] at hTurns
      obtain ⟨turns, rfl⟩ := Nat.exists_eq_succ_of_ne_zero
        (Nat.ne_of_gt (Nat.zero_lt_of_lt hTurns))
      have hLess : text.length < turns := by
        omega
      rcases ih hIa hLess with
        ⟨lexer', hLoop, hIa', hBuffer'⟩
      refine ⟨lexer', ?_, hIa', ?_⟩
      · rw [scanStringLoop, hTurn]
        exact hLoop
      · rw [hBuffer', hBuffer, Utf8.encode_cons,
          List.append_assoc]

/- And whatever it reads is that. -/
theorem of_scanStringLoop
    {turns : Nat}
    {type : TokenType}
    (hLoop : scanStringLoop turns lexer = (type, lexer')) :
    type = .parseError ∨
      type = .valueString ∧ ∃ text cs, Chars text cs ∧
        lexer.ia = text ++ 0x22 :: lexer'.ia ∧
        lexer'.tokenBuffer =
          lexer.tokenBuffer ++ Utf8.encode cs := by
  induction turns generalizing lexer with
  | zero =>
      cases hLoop
      exact .inl rfl
  | succ turns ih =>
      rw [scanStringLoop] at hLoop
      split at hLoop
      case h_1 type' middle hTurn =>
        cases hLoop
        rcases of_scanStringTurn hTurn with
          hError | ⟨hString, hIa, hBuffer⟩ | ⟨hNone, _⟩
        · cases hError
          exact .inl rfl
        · cases hString
          refine .inr ⟨rfl, [], [], .nil, hIa, ?_⟩
          rw [hBuffer, Utf8.encode_nil, List.append_nil]
        · cases hNone
      case h_2 middle hTurn =>
        rcases of_scanStringTurn hTurn with
          hError | ⟨hString, _⟩ |
            ⟨_, text, c, hChar, hIa, hBuffer⟩
        · cases hError
        · cases hString
        · rcases ih hLoop with
            hError | ⟨hType, rest, cs, hChars, hIa', hBuffer'⟩
          · exact .inl hError
          · refine .inr ⟨hType, text ++ rest, c :: cs,
              .cons hChar hChars, ?_, ?_⟩
            · rw [hIa, hIa', List.append_assoc]
            · rw [hBuffer', hBuffer, Utf8.encode_cons,
                List.append_assoc]

/- What is stored is the string, as UTF-8. -/
theorem getString_of_tokenBuffer
    {s : String}
    (hBuffer : lexer.tokenBuffer = Utf8.encode s.toList) :
    lexer.getString = s := by
  rw [getString, hBuffer, Utf8.fromUTF8?_encode,
    String.ofList_toList]
  rfl

/- A string is read after its first quotation mark. -/
theorem scanString_of_text
    {s : String}
    (hText : StringText (0x22 :: text) s)
    (hInput : lexer.ia = text ++ rest) :
    ∃ lexer', lexer.scanString = (.valueString, lexer') ∧
      lexer'.ia = rest ∧ lexer'.getString = s := by
  rcases hText with ⟨inner, hInner, hChars⟩
  rw [List.cons_append, List.cons.injEq] at hInner
  rcases hInner with ⟨_, rfl⟩
  rw [List.append_assoc] at hInput
  have hReset : lexer.reset.ia = inner ++ 0x22 :: rest := hInput
  have hTurns : inner.length < lexer.ia.length + 1 := by
    rw [hInput, List.length_append]
    omega
  rcases scanStringLoop_of_chars hChars hReset hTurns with
    ⟨lexer', hLoop, hIa, hBuffer⟩
  exact ⟨lexer', hLoop, hIa, getString_of_tokenBuffer hBuffer⟩

/- And what is read there is the rest of a string. -/
theorem of_scanString
    {type : TokenType}
    (hScan : lexer.scanString = (type, lexer')) :
    type = .parseError ∨
      type = .valueString ∧ ∃ text,
        StringText (0x22 :: text) lexer'.getString ∧
        lexer.ia = text ++ lexer'.ia := by
  rcases of_scanStringLoop hScan with
    hError | ⟨hType, text, cs, hChars, hIa, hBuffer⟩
  · exact .inl hError
  · have hString : lexer'.getString = String.ofList cs := by
      apply getString_of_tokenBuffer
      rw [hBuffer, String.toList_ofList]
      rfl
    refine .inr ⟨hType, text ++ [0x22],
      ⟨text, rfl, ?_⟩, ?_⟩
    · rw [hString, String.toList_ofList]
      exact hChars
    · rw [← reset_ia lexer, hIa, List.append_assoc]
      rfl

end Lexer

end Json

end Poker

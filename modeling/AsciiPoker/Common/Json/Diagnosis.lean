import AsciiPoker.Common.Json.Soundness

/-
  What is thrown for a body that is not JSON.

  The text of a syntax error quotes the token that was read
  last, of which the first bytes alone may be there.  All
  that was read before that token is text in UTF-8, so that
  the text of the error is one exactly when all that was read
  is one.  The turns of the loop never run out.

  Main declarations:
    * `Lexer.Within`, `Parser.Reading`
    * `Parser.parseValue_outcome`
    * `parse_describes`
-/

namespace Poker

namespace Json

variable {strtod : Strtod}
variable {b : UInt8}
variable {body ws text rest : List UInt8}

open Utf8 (Valid)

------------------------------------------------------------
-- Texts of Tokens
------------------------------------------------------------

/- The text of a string is valid. -/
theorem valid_bytes
    (text : String) :
    Valid (bytes text) :=
  ⟨text.toList, rfl⟩

/- A byte of ASCII is a character. -/
theorem valid_ascii_cons
    (hAscii : b ≤ 0x7F) :
    Valid (b :: text) ↔ Valid text := by
  have hOne : Valid [b] :=
    Utf8.valid_of_ascii
      (List.forall_mem_singleton.mpr hAscii)
  rw [← List.singleton_append]
  exact Utf8.valid_append_iff hOne

/- Blanks are ASCII. -/
theorem Whitespace.valid
    (hSpace : Whitespace ws) :
    Valid ws := by
  apply Utf8.valid_of_ascii
  intro b hMem
  rcases hSpace b hMem with rfl | rfl | rfl | rfl
  all_goals decide

/- So is a digit. -/
theorem HexDigit.ascii
    {n : Nat}
    (hDigit : HexDigit b n) :
    b ≤ 0x7F := by
  rcases hDigit with ⟨hLess, hByte⟩
  have hBoth : ∀ n < 16,
      UInt8.ofNat (Nat.digitChar n).toNat ≤ 0x7F ∧
        UInt8.ofNat (Nat.digitChar n).toUpper.toNat ≤ 0x7F := by
    decide
  rcases hByte with rfl | rfl
  · exact (hBoth n hLess).1
  · exact (hBoth n hLess).2

/- And all four of them. -/
theorem HexNumber.ascii
    {digits : List UInt8}
    {n : Nat}
    (hDigits : HexNumber digits n) :
    ∀ b ∈ digits, b ≤ 0x7F := by
  rcases hDigits with ⟨b₁, b₂, b₃, b₄, n₁, n₂, n₃, n₄, rfl,
    h₁, h₂, h₃, h₄, _⟩
  simp [h₁.ascii, h₂.ascii, h₃.ascii, h₄.ascii]

/- A character, written out or escaped. -/
theorem CharText.valid
    {c : Char}
    (hChar : CharText text c) :
    Valid text := by
  cases hChar with
  | plain => exact ⟨[c], by simp [Utf8.encode]⟩
  | short hEscape =>
      have hAll : ∀ escape ∈ shortEscapes,
          escape.1 ≤ 0x7F := by
        decide
      apply Utf8.valid_of_ascii
      rw [List.forall_mem_cons, List.forall_mem_singleton]
      exact ⟨by decide, hAll _ hEscape⟩
  | unicode hDigits =>
      apply Utf8.valid_of_ascii
      have hAll := hDigits.ascii
      simpa using hAll
  | surrogates hHigh hLow =>
      apply Utf8.valid_of_ascii
      have hFirst := hHigh.ascii
      have hSecond := hLow.ascii
      simp only [List.cons_append, List.forall_mem_cons,
        List.forall_mem_append]
      exact ⟨by decide, by decide, hFirst, by decide,
        by decide, hSecond⟩

/- By induction over the characters. -/
theorem Chars.valid
    {cs : List Char}
    (hChars : Chars text cs) :
    Valid text := by
  induction hChars with
  | nil => exact Utf8.valid_nil
  | cons hChar _ ih =>
      exact (Utf8.valid_append_iff hChar.valid).mpr ih

/- The quotes are ASCII. -/
theorem StringText.valid
    {s : String}
    (hText : StringText text s) :
    Valid text := by
  rcases hText with ⟨inner, rfl, hChars⟩
  rw [List.cons_append, valid_ascii_cons (by decide),
    Utf8.valid_append_iff hChars.valid,
    valid_ascii_cons (by decide)]
  exact Utf8.valid_nil

/- A number has nothing else. -/
theorem Digits.ascii
    (hDigits : Digits text) :
    ∀ b ∈ text, b ≤ 0x7F :=
  fun b hMem => UInt8.le_trans (hDigits b hMem).2 (by decide)

/- Signs, points and letters are ASCII as well. -/
theorem NumberText.valid
    {value : Option Json}
    (hText : NumberText strtod text value) :
    Valid text := by
  rcases hText with ⟨sign, integral, fraction, exponent, rfl,
    hSign, hIntegral, hFraction, hExponent, _⟩
  have hSignAscii : ∀ b ∈ sign, b ≤ 0x7F := by
    rcases hSign with rfl | rfl
    · simp
    · exact List.forall_mem_singleton.mpr (by decide)
  have hIntegralAscii : ∀ b ∈ integral, b ≤ 0x7F := by
    rcases hIntegral with rfl | ⟨hDigits, _⟩
    · exact List.forall_mem_singleton.mpr (by decide)
    · exact hDigits.ascii
  have hFractionAscii : ∀ b ∈ fraction, b ≤ 0x7F := by
    rcases hFraction with rfl | ⟨digits, rfl, _, hDigits⟩
    · simp
    · have hAll := hDigits.ascii
      simpa using hAll
  have hExponentAscii : ∀ b ∈ exponent, b ≤ 0x7F := by
    rcases hExponent with
      rfl | ⟨letter, sign, digits, rfl, hLetter, hSign, _,
        hDigits⟩
    · simp
    · simp only [List.cons_append, List.forall_mem_cons,
        List.forall_mem_append]
      refine ⟨?_, ?_, hDigits.ascii⟩
      · rcases hLetter with rfl | rfl
        all_goals decide
      · rcases hSign with rfl | rfl | rfl
        · simp
        · exact List.forall_mem_singleton.mpr (by decide)
        · exact List.forall_mem_singleton.mpr (by decide)
  apply Utf8.valid_of_ascii
  simp only [List.forall_mem_append]
  exact ⟨⟨⟨hSignAscii, hIntegralAscii⟩, hFractionAscii⟩,
    hExponentAscii⟩

/- So a token that was read is valid. -/
theorem Lexeme.valid
    {type : TokenType}
    {value : Option Json}
    (hLexeme : Lexeme strtod type value text) :
    Valid text := by
  cases hLexeme with
  | @punctuation _ b hByte =>
      have hAscii : b ≤ 0x7F := by
        cases type with
        | beginArray => cases hByte; decide
        | endArray => cases hByte; decide
        | beginObject => cases hByte; decide
        | endObject => cases hByte; decide
        | nameSeparator => cases hByte; decide
        | valueSeparator => cases hByte; decide
        | _ => cases hByte
      exact (valid_ascii_cons hAscii).mpr Utf8.valid_nil
  | null => exact ⟨"null".toList, by decide⟩
  | true => exact ⟨"true".toList, by decide⟩
  | false => exact ⟨"false".toList, by decide⟩
  | string hText => exact hText.valid
  | number _ hText => exact hText.valid

/- No token is empty. -/
theorem Lexeme.ne_nil
    {type : TokenType}
    {value : Option Json}
    (hLexeme : Lexeme strtod type value text) :
    text ≠ [] := by
  cases hLexeme with
  | string hText =>
      rcases hText with ⟨inner, rfl, _⟩
      simp
  | number _ hText =>
      rintro rfl
      exact Lexer.numberText_ne_nil hText
  | _ => simp

------------------------------------------------------------
-- The Lexer in the Body
------------------------------------------------------------

namespace Lexer

variable {lexer : Lexer}

/-
  What has been read is text up to the token that is being
  read, and the position is at the end of it, or after it
  when it is the whole body.
-/
def Within
    (body : List UInt8)
    (lexer : Lexer) : Prop :=
  ∃ before, Valid before ∧
    body = before ++ lexer.tokenString ++ lexer.ia ∧
    (before ++ lexer.tokenString).length ≤
      lexer.position.charsReadTotal ∧
    (lexer.ia ≠ [] → lexer.position.charsReadTotal =
      (before ++ lexer.tokenString).length)

/- The bytes before the position. -/
theorem Within.take
    (hWithin : lexer.Within body) :
    ∃ before, Valid before ∧
      body = before ++ lexer.tokenString ++ lexer.ia ∧
      body.take lexer.position.charsReadTotal =
        before ++ lexer.tokenString := by
  rcases hWithin with ⟨before, hBefore, hBody, hLe, hEq⟩
  refine ⟨before, hBefore, hBody, ?_⟩
  cases hIa : lexer.ia with
  | nil =>
      rw [hIa, List.append_nil] at hBody
      rw [hBody, List.take_of_length_le hLe]
  | cons b ia =>
      rw [hEq (by rw [hIa]; simp), hBody, List.take_left]

/- One byte more of the body. -/
theorem within_get
    (hWithin : lexer.Within body) :
    lexer.get.Within body := by
  rcases hWithin with ⟨before, hBefore, hBody, hLe, hEq⟩
  refine ⟨before, hBefore, ?_⟩
  rw [get_tokenString, get_ia, get_charsReadTotal]
  cases hIa : lexer.ia with
  | nil =>
      rw [hIa] at hBody
      rw [List.head?_nil, Option.toList_none, List.append_nil]
      exact ⟨hBody, Nat.le_succ_of_le hLe,
        fun hSome => absurd rfl hSome⟩
  | cons b ia =>
      rw [hIa] at hBody hEq
      have hTotal := hEq (List.cons_ne_nil b ia)
      rw [List.head?_cons, Option.toList_some, List.tail_cons,
        ← List.append_assoc, List.length_append, ← hTotal]
      refine ⟨?_, Nat.le_refl _, fun _ => rfl⟩
      rw [hBody]
      simp

/- What is given back is no part of the token. -/
theorem unget_get_tokenString
    (lexer : Lexer) :
    lexer.get.unget.tokenString = lexer.tokenString := by
  unfold unget
  dsimp only
  rw [get_current, get_tokenString]
  cases lexer.ia with
  | nil => simp
  | cons b ia => simp

/- What was read is a part of the body. -/
theorem kept_within : Kept (Within body) where
  get := within_get
  unget := by
    intro lexer hWithin
    unfold Within
    rw [unget_get_tokenString, unget_get_ia,
      unget_get_charsReadTotal]
    exact hWithin
  same := by
    intro lexer lexer' hSame hWithin
    unfold Within
    rw [hSame.tokenString, hSame.ia, hSame.position]
    exact hWithin

/- A token can start after what is text. -/
theorem Within.reset
    {before : List UInt8}
    (hWithin : lexer.Within body)
    (hBefore : Valid before)
    (hBody : body =
      before ++ lexer.current.toList ++ lexer.ia) :
    lexer.reset.Within body := by
  rcases hWithin with ⟨before', _, hBody', hLe, hEq⟩
  have hSame : before ++ lexer.current.toList =
      before' ++ lexer.tokenString :=
    List.append_cancel_right (hBody.symm.trans hBody')
  refine ⟨before, hBefore, hBody, ?_, ?_⟩
  · rw [← hSame] at hLe
    exact hLe
  · rw [← hSame] at hEq
    exact hEq

/- The token is text when all that was read is. -/
theorem valid_getTokenString
    (lexer : Lexer) :
    Valid lexer.getTokenString ↔ Valid lexer.tokenString := by
  have hControl : ∀ n < 0x20,
      printable (UInt8.ofNat n) ≠ [] ∧
        ∀ c ∈ printable (UInt8.ofNat n), c ≤ 0x7F := by
    decide +kernel
  apply Utf8.valid_flatMap_iff
  · intro b hAscii
    by_cases hSmall : b ≤ 0x1F
    · rw [UInt8.le_iff_toNat_le] at hSmall
      have hByte := hControl b.toNat (Nat.lt_succ_of_le hSmall)
      rw [UInt8.ofNat_toNat] at hByte
      exact hByte
    · unfold printable
      rw [if_neg hSmall]
      simpa using hAscii
  · intro b hLarge
    have hNot : ¬ b ≤ 0x1F :=
      UInt8.not_le.mpr (UInt8.lt_trans (by decide) hLarge)
    exact if_neg hNot

end Lexer

------------------------------------------------------------
-- Errors
------------------------------------------------------------

/-
  The exception is no end of the turns, and if it is a syntax
  error, its text is in UTF-8 when what was read is.
-/
def Exception.Describes
    (body : List UInt8) : Exception → Prop
| .parseError byte what =>
    Valid what ↔ Valid (body.take byte)
| .outOfRange _ => True
| .exhausted => False

namespace Parser

variable {p q : Parser}
variable {stack : List Frame}

/-
  The parser is in the body; all that was read is text unless
  the last token is an error.
-/
structure Reading
    (body : List UInt8)
    (p : Parser) : Prop where
  started : p.Started
  within : p.lexer.Within body
  whole : p.lastToken ≠ .parseError →
    ∃ read, Valid read ∧ body = read ++ p.lexer.ia

/- From a place after a text, the next token is read. -/
theorem reading_next
    (strtod : Strtod)
    {read : List UInt8}
    (hWithin : p.lexer.Within body)
    (hRead : Valid read)
    (hBody : body = read ++ p.lexer.ia) :
    Reading body (p.next strtod) where
  started := p.next_started strtod
  within := by
    have hSkip := Lexer.kept_within.skipWhitespace hWithin
    refine Lexer.kept_within.scanCurrent hSkip fun hSome => ?_
    rcases p.lexer.skipWhitespace_spec with
      ⟨ws, rest, hInput, hSpace, hCurrent, hIa⟩
    refine hSkip.reset
      ((Utf8.valid_append_iff hRead).mpr hSpace.valid) ?_
    rw [hBody, hInput, hCurrent, hIa]
    cases rest with
    | nil =>
        rw [hCurrent] at hSome
        cases hSome
    | cons b rest => simp
  whole := by
    intro hToken
    have hScan : p.lexer.scanToken strtod =
        ((p.next strtod).lastToken, (p.next strtod).lexer) :=
      rfl
    rcases Lexer.of_scanToken hScan with
      hError |
      ⟨ws, hSpace, ⟨_, ⟨hIa, hEnd⟩ | hIa⟩ |
        ⟨text, hLexeme, hIa⟩⟩
    · exact absurd hError hToken
    · refine ⟨read ++ ws,
        (Utf8.valid_append_iff hRead).mpr hSpace.valid, ?_⟩
      rw [hBody, hIa, hEnd, List.append_nil]
    · have hNull : Valid (ws ++ [0x00]) :=
        (Utf8.valid_append_iff hSpace.valid).mpr
          ((valid_ascii_cons (by decide)).mpr Utf8.valid_nil)
      refine ⟨read ++ (ws ++ [0x00]),
        (Utf8.valid_append_iff hRead).mpr hNull, ?_⟩
      rw [hBody, hIa]
      simp
    · have hText : Valid (ws ++ text) :=
        (Utf8.valid_append_iff hSpace.valid).mpr hLexeme.valid
      refine ⟨read ++ (ws ++ text),
        (Utf8.valid_append_iff hRead).mpr hText, ?_⟩
      rw [hBody, hIa]
      simp

/- The next token, unless there was an error. -/
theorem Reading.next
    (strtod : Strtod)
    (hReading : Reading body p)
    (hToken : p.lastToken ≠ .parseError) :
    Reading body (p.next strtod) := by
  rcases hReading.whole hToken with ⟨read, hRead, hBody⟩
  exact reading_next strtod hReading.within hRead hBody

/- All that was read is text, so the bytes up to there are. -/
theorem Reading.valid_take
    (hReading : Reading body p)
    (hToken : p.lastToken ≠ .parseError) :
    Valid (body.take p.lexer.position.charsReadTotal) := by
  rcases hReading.whole hToken with ⟨read, hRead, hBody⟩
  rcases hReading.within.take with ⟨before, _, hBody', hTake⟩
  rw [hTake, ← List.append_cancel_right
    (hBody.symm.trans hBody')]
  exact hRead

/- The error is where the reading stopped. -/
theorem Reading.errorAt
    {message : List UInt8}
    (hMessage : Valid message ↔
      Valid (body.take p.lexer.position.charsReadTotal)) :
    (p.errorAt message).Describes body := by
  unfold Parser.errorAt
  dsimp only [Exception.Describes]
  rw [Utf8.valid_append_iff (valid_bytes _)]
  exact hMessage

/- The text quotes the token as far as it was read. -/
theorem Reading.syntaxError
    (hReading : Reading body p)
    (expected : TokenType)
    (context : String) :
    (p.syntaxError expected context).Describes body := by
  apply Reading.errorAt
  have hExpected : Valid (if expected = .uninitialized then
      [] else bytes ("; expected " ++ expected.name)) := by
    split
    · exact Utf8.valid_nil
    · exact valid_bytes _
  unfold exceptionMessage
  rw [Utf8.valid_append_iff_front hExpected,
    Utf8.valid_append_iff (valid_bytes _)]
  by_cases hToken : p.lastToken = .parseError
  · rcases hReading.within.take with
      ⟨before, hBefore, _, hTake⟩
    rw [if_pos hToken, hTake,
      Utf8.valid_append_iff_front (valid_bytes _),
      List.append_assoc, Utf8.valid_append_iff (valid_bytes _),
      Utf8.valid_append_iff (valid_bytes _),
      Utf8.valid_append_iff hBefore]
    exact Lexer.valid_getTokenString p.lexer
  · rw [if_neg hToken]
    exact iff_of_true (valid_bytes _)
      (hReading.valid_take hToken)

/- An empty body ends at its end. -/
theorem Reading.emptyError
    (hReading : Reading body p)
    (hToken : p.lastToken = .endOfInput) :
    p.emptyError.Describes body := by
  unfold Parser.emptyError
  split
  · apply Reading.errorAt
    refine iff_of_true (valid_bytes _) (hReading.valid_take ?_)
    rw [hToken]
    decide
  · exact hReading.syntaxError _ _

------------------------------------------------------------
-- Turns
------------------------------------------------------------

/- A token takes a byte, or there is no more of the body. -/
theorem next_shorter
    (strtod : Strtod)
    (p : Parser) :
    (p.next strtod).lastToken = .parseError ∨
      (p.next strtod).lastToken = .endOfInput ∨
      (p.next strtod).lexer.ia.length < p.lexer.ia.length := by
  have hScan : p.lexer.scanToken strtod =
      ((p.next strtod).lastToken, (p.next strtod).lexer) :=
    rfl
  rcases Lexer.of_scanToken hScan with
    hError | ⟨ws, _, ⟨hEnd, _⟩ | ⟨text, hLexeme, hIa⟩⟩
  · exact .inl hError
  · exact .inr (.inl hEnd)
  · have hLength := List.length_pos_of_ne_nil hLexeme.ne_nil
    rw [hIa, List.length_append, List.length_append]
    exact .inr (.inr (by omega))

/- A token of which it is known that it is there. -/
theorem shorter_of_token
    {type : TokenType}
    (hToken : (p.next strtod).lastToken = type)
    (hError : type ≠ .parseError)
    (hEnd : type ≠ .endOfInput) :
    (p.next strtod).lexer.ia.length < p.lexer.ia.length := by
  have hShorter := p.next_shorter strtod
  rw [hToken] at hShorter
  exact (hShorter.resolve_left hError).resolve_left hEnd

/- The turns that are left are enough from here on. -/
def Enough
    (turns : Nat)
    (p : Parser) : Prop :=
  0 < turns ∧
    (p.lastToken = .parseError ∨ p.lastToken = .endOfInput ∨
      2 * p.lexer.ia.length + 2 ≤ turns)

/- A token takes a byte, so the turns suffice. -/
theorem enough_next
    (strtod : Strtod)
    {turns : Nat}
    (hPos : 0 < turns)
    (hTurns : 2 * p.lexer.ia.length ≤ turns) :
    Enough turns (p.next strtod) := by
  refine ⟨hPos, (p.next_shorter strtod).imp_right
    (Or.imp_right fun hShorter => ?_)⟩
  omega

/- What the loop comes to. -/
def Outcome
    (body : List UInt8) :
    Except Exception (Json × Parser) → Prop
| .ok (_, q) => Reading body q ∧ q.lastToken ≠ .parseError
| .error exception => exception.Describes body

/- What reading a key comes to. -/
theorem Reading.readKey
    (strtod : Strtod)
    (hReading : Reading body p) :
    (∃ exception, p.readKey strtod = .error exception ∧
      exception.Describes body) ∨
    ∃ (key : String) (middle : Parser),
      p.readKey strtod = .ok (key, middle.next strtod) ∧
        Reading body middle ∧
        middle.lastToken ≠ .parseError ∧
        middle.lexer.ia.length < p.lexer.ia.length := by
  unfold Parser.readKey
  dsimp only
  rw [hReading.started.getToken_eq]
  split
  case isTrue =>
    exact .inl ⟨_, rfl, hReading.syntaxError _ _⟩
  case isFalse hString =>
    have hToken : p.lastToken ≠ .parseError := by
      rw [not_not.mp hString]
      decide
    have hNext := hReading.next strtod hToken
    split
    case isTrue =>
      exact .inl ⟨_, rfl, hNext.syntaxError _ _⟩
    case isFalse hSeparator =>
      have hLast := not_not.mp hSeparator
      rw [hNext.started.getToken_eq]
      refine .inr ⟨_, p.next strtod, rfl, hNext, ?_, ?_⟩
      · rw [hLast]
        decide
      · exact shorter_of_token hLast (by decide) (by decide)

/- The loop has an outcome from a token on. -/
def Parses
    (strtod : Strtod)
    (body : List UInt8)
    (turns : Nat) : Prop :=
  ∀ p stack, Reading body p → Enough turns p →
    Outcome body (parseValue strtod turns p stack)

/- And from a value on. -/
def Evaluates
    (strtod : Strtod)
    (body : List UInt8)
    (turns : Nat) : Prop :=
  ∀ p stack value, Reading body p →
    p.lastToken ≠ .parseError →
    2 * p.lexer.ia.length + 1 ≤ turns →
      Outcome body (evaluate strtod turns p stack value)

section Steps

variable {turns : Nat}

/- The key of a member and the start of its value. -/
theorem Parses.member
    {kept : List (String × Json)}
    (hParses : Parses strtod body turns)
    (hReading : Reading body (p.next strtod))
    (hTurns : 2 * p.lexer.ia.length ≤ turns + 2)
    (hPos : 0 < turns) :
    Outcome body
      (match (p.next strtod).readKey strtod with
        | .error exception => .error exception
        | .ok (key, p) =>
            parseValue strtod turns p
              (.object kept key :: stack)) := by
  -- Without a first token the key is an error.
  rcases p.next_shorter strtod with
    hToken | hToken | hFirst
  · rw [readKey, if_pos (by rw [hToken]; decide)]
    exact hReading.syntaxError _ _
  · rw [readKey, if_pos (by rw [hToken]; decide)]
    exact hReading.syntaxError _ _
  rcases hReading.readKey strtod with
    ⟨exception, hKey, hDescribes⟩ |
    ⟨key, middle, hKey, hMiddle, hToken, hShorter⟩
  · rw [hKey]
    exact hDescribes
  · rw [hKey]
    exact hParses _ _ (hMiddle.next strtod hToken)
      (enough_next strtod hPos (by omega))

/- A value that ends with a token after what was read. -/
theorem Evaluates.next
    {value : Json}
    {type : TokenType}
    (hEvaluates : Evaluates strtod body turns)
    (hReading : Reading body (p.next strtod))
    (hToken : (p.next strtod).lastToken = type)
    (hNotError : type ≠ .parseError)
    (hNotEnd : type ≠ .endOfInput)
    (hTurns : 2 * p.lexer.ia.length ≤ turns + 1) :
    Outcome body
      (evaluate strtod turns (p.next strtod) stack value) := by
  have hShorter := shorter_of_token hToken hNotError hNotEnd
  refine hEvaluates _ _ _ hReading ?_ (by omega)
  rw [hToken]
  exact hNotError

/- One turn more for a document. -/
theorem parses_succ
    (hParses : Parses strtod body turns)
    (hEvaluates : Evaluates strtod body turns) :
    Parses strtod body (turns + 1) := by
  intro p stack hReading hEnough
  by_cases hError : p.lastToken = .parseError
  · rw [parseValue, hError]
    exact hReading.syntaxError _ _
  by_cases hEnd : p.lastToken = .endOfInput
  · rw [parseValue, hEnd]
    exact hReading.emptyError hEnd
  have hTurns :=
    (hEnough.2.resolve_left hError).resolve_left hEnd
  have hValue : ∀ value,
      Outcome body (evaluate strtod turns p stack value) :=
    fun value =>
      hEvaluates p stack value hReading hError (by omega)
  have hNext := hReading.next strtod hError
  rw [parseValue]
  cases hToken : p.lastToken with
  | beginObject =>
      dsimp only
      rw [hReading.started.getToken_eq]
      split
      case isTrue hLast =>
        exact hEvaluates.next hNext hLast (by decide)
          (by decide) (by omega)
      case isFalse =>
        exact hParses.member hNext (by omega) (by omega)
  | beginArray =>
      dsimp only
      rw [hReading.started.getToken_eq]
      split
      case isTrue hLast =>
        exact hEvaluates.next hNext hLast (by decide)
          (by decide) (by omega)
      case isFalse =>
        exact hParses _ _ hNext
          (enough_next strtod (by omega) (by omega))
  | valueFloat =>
      dsimp only
      split
      · trivial
      · exact hValue _
  | parseError => exact absurd hToken hError
  | endOfInput => exact absurd hToken hEnd
  | literalFalse => exact hValue _
  | literalNull => exact hValue _
  | literalTrue => exact hValue _
  | valueInteger => exact hValue _
  | valueString => exact hValue _
  | valueUnsigned => exact hValue _
  | _ => exact hReading.syntaxError _ _

/- And for a value. -/
theorem evaluates_succ
    (hParses : Parses strtod body turns)
    (hEvaluates : Evaluates strtod body turns) :
    Evaluates strtod body (turns + 1) := by
  intro p stack value hReading hToken hTurns
  have hNext := hReading.next strtod hToken
  cases stack with
  | nil => exact ⟨hReading, hToken⟩
  | cons frame stack =>
      cases frame with
      | array elements =>
          rw [evaluate, hReading.started.getToken_eq]
          split
          case isTrue hComma =>
            have hShorter :=
              shorter_of_token hComma (by decide) (by decide)
            have hNotError :
                (p.next strtod).lastToken ≠ .parseError := by
              rw [hComma]
              decide
            rw [hNext.started.getToken_eq]
            exact hParses _ _ (hNext.next strtod hNotError)
              (enough_next strtod (by omega) (by omega))
          case isFalse =>
            split
            case isTrue hEnd =>
              exact hEvaluates.next hNext hEnd (by decide)
                (by decide) (by omega)
            case isFalse => exact hNext.syntaxError _ _
      | object kept key =>
          rw [evaluate, hReading.started.getToken_eq]
          split
          case isTrue hComma =>
            have hShorter :=
              shorter_of_token hComma (by decide) (by decide)
            have hNotError :
                (p.next strtod).lastToken ≠ .parseError := by
              rw [hComma]
              decide
            rw [hNext.started.getToken_eq]
            have hKey := hNext.next strtod hNotError
            exact hParses.member hKey (by omega) (by omega)
          case isFalse =>
            split
            case isTrue hEnd =>
              exact hEvaluates.next hNext hEnd (by decide)
                (by decide) (by omega)
            case isFalse => exact hNext.syntaxError _ _

end Steps

/-
  With enough turns the loop returns, or throws what
  describes the place that it is thrown at.
-/
theorem parses_and_evaluates
    (strtod : Strtod)
    (body : List UInt8)
    (turns : Nat) :
    Parses strtod body turns ∧
      Evaluates strtod body turns := by
  induction turns with
  | zero =>
      constructor
      · intro p stack _ hEnough
        exact absurd hEnough.1 (Nat.lt_irrefl 0)
      · intro p stack value _ _ hTurns
        omega
  | succ turns ih =>
      exact ⟨parses_succ ih.1 ih.2, evaluates_succ ih.1 ih.2⟩

------------------------------------------------------------
-- The Body
------------------------------------------------------------

/- Nothing is read yet. -/
theorem within_start
    (body : List UInt8) :
    Lexer.Within body { ia := body } :=
  ⟨[], Utf8.valid_nil, rfl, Nat.le_refl 0, fun _ => rfl⟩

/- The first token is read in the body. -/
theorem reading_opening
    (strtod : Strtod)
    (body : List UInt8) :
    Reading body (opening strtod body) := by
  have hCases := skipBom_cases { ia := body }
  have hWithin :=
    Lexer.kept_within.skipBom (within_start body)
  have hStarted :
      (Lexer.skipBom { ia := body }).1 = false →
        (Lexer.skipBom { ia := body }).2.Started :=
    Lexer.started_skipBom
  cases hBom : Lexer.skipBom { ia := body } with
  | mk found after =>
      rw [hBom] at hCases hWithin hStarted
      rcases hCases with hFalse | ⟨hTrue, mark, hMark, hInput⟩
      · change found = false at hFalse
        subst hFalse
        rw [opening_of_broken hBom]
        exact ⟨Lexer.kept_started.fail _ (hStarted rfl),
          Lexer.kept_within.fail _ hWithin,
          fun hToken => absurd rfl hToken⟩
      · change found = true at hTrue
        subst hTrue
        have hValid : Valid mark := by
          rcases hMark with rfl | rfl
          · exact Utf8.valid_nil
          · exact ⟨['\uFEFF'], by decide⟩
        rw [opening_of_skipBom hBom]
        exact reading_next strtod
          (p := ⟨after, .uninitialized⟩) hWithin hValid hInput

/- Two turns a byte are enough. -/
theorem enough_opening
    (strtod : Strtod)
    (body : List UInt8) :
    Enough (2 * (body.length + 1)) (opening strtod body) := by
  rcases opening_cases strtod body with
    hError | ⟨mark, p, _, hBody, hOpening⟩
  · exact ⟨by omega, .inl hError⟩
  · have hLength := congrArg List.length hBody
    rw [List.length_append] at hLength
    rw [hOpening]
    exact enough_next strtod (by omega) (by omega)

end Parser

/- What is thrown for a body describes it. -/
theorem parse_describes
    {exception : Exception}
    (hParse : parse strtod body = .error exception) :
    exception.Describes body := by
  unfold parse at hParse
  have hOutcome := (Parser.parses_and_evaluates strtod body
    (2 * (body.length + 1))).1 _ []
      (Parser.reading_opening strtod body)
      (Parser.enough_opening strtod body)
  split at hParse
  case h_1 hError =>
    cases hParse
    rw [hError] at hOutcome
    exact hOutcome
  case h_2 value q hOk =>
    rw [hOk] at hOutcome
    rcases hOutcome with ⟨hReading, hToken⟩
    dsimp only at hParse
    rw [hReading.started.getToken_eq] at hParse
    split at hParse
    case isTrue =>
      cases hParse
      exact (hReading.next strtod hToken).syntaxError _ _
    case isFalse => cases hParse

/- The turns suffice for every body. -/
theorem parse_ne_exhausted
    (strtod : Strtod)
    (body : List UInt8) :
    parse strtod body ≠ .error .exhausted :=
  fun hParse => parse_describes hParse

/-
  The text of a syntax error cannot be sent exactly when the
  body is cut off inside of a character where it is thrown.
-/
theorem parse_error_unreadable_iff
    {byte : Nat}
    {what : List UInt8}
    (hParse : parse strtod body =
      .error (.parseError byte what)) :
    String.fromUTF8? ⟨what.toArray⟩ = none ↔
      ¬ Valid (body.take byte) := by
  rw [Utf8.fromUTF8?_eq_none]
  exact not_congr (parse_describes hParse)

end Json

end Poker

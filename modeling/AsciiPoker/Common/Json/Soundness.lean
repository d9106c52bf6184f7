import AsciiPoker.Common.Json.Completeness

/-
  What is parsed as a value is a document that has it.

  Main declarations:
    * `Parser.Closes`
    * `Parser.parseValue_sound`
    * `parse_eq_ok_iff`
-/

namespace Poker

namespace Json

variable {strtod : Strtod}
variable {b : UInt8}
variable {ws text rest : List UInt8}

namespace Parser

variable {p q : Parser}
variable {stack : List Frame}
variable {type : TokenType}

------------------------------------------------------------
-- Tokens
------------------------------------------------------------

/- A token of one byte was there after some space. -/
theorem of_next_punctuation
    (hToken : (p.next strtod).lastToken = type)
    (hByte : punctuation type = some b) :
    ∃ ws, Whitespace ws ∧
      p.lexer.ia = ws ++ b :: (p.next strtod).lexer.ia := by
  have hScan : p.lexer.scanToken strtod =
      (type, (p.next strtod).lexer) := by
    rw [← hToken]
    rfl
  rcases Lexer.of_scanToken hScan with
    rfl | ⟨ws, hSpace, ⟨rfl, _⟩ | ⟨text, hLexeme, hIa⟩⟩
  · cases hByte
  · cases hByte
  · generalize (p.next strtod).lexer.scalar? type = value
      at hLexeme
    cases hLexeme with
    | punctuation hByte' =>
        rw [hByte, Option.some.injEq] at hByte'
        subst hByte'
        rw [List.append_assoc] at hIa
        exact ⟨ws, hSpace, hIa⟩
    | null => cases hByte
    | true => cases hByte
    | false => cases hByte
    | string => cases hByte
    | number hType =>
        rcases hType with rfl | rfl | rfl
        all_goals cases hByte

/- And so was a string. -/
theorem of_next_string
    (hToken : (p.next strtod).lastToken = .valueString) :
    ∃ ws text, Whitespace ws ∧
      StringText text (p.next strtod).lexer.getString ∧
      p.lexer.ia = ws ++ text ++ (p.next strtod).lexer.ia := by
  have hScan : p.lexer.scanToken strtod =
      (.valueString, (p.next strtod).lexer) := by
    rw [← hToken]
    rfl
  rcases Lexer.of_scanToken hScan with
    hError | ⟨ws, hSpace, ⟨hEnd, _⟩ | ⟨text, hLexeme, hIa⟩⟩
  · cases hError
  · cases hEnd
  · refine ⟨ws, text, hSpace, ?_, hIa⟩
    generalize hValue : (p.next strtod).lexer.scalar?
      .valueString = value at hLexeme
    cases hLexeme with
    | punctuation hByte => cases hByte
    | string hText =>
        cases hValue
        exact hText
    | number hType =>
        rcases hType with hType | hType | hType
        all_goals cases hType

/- And so was a value that is one token. -/
theorem of_next_scalar
    {j : Json}
    (hScalar : (p.next strtod).lexer.scalar?
      (p.next strtod).lastToken = some j) :
    ∃ ws text, Whitespace ws ∧ Scalar strtod text j ∧
      p.lexer.ia = ws ++ text ++ (p.next strtod).lexer.ia := by
  have hScan : p.lexer.scanToken strtod =
      ((p.next strtod).lastToken, (p.next strtod).lexer) :=
    rfl
  rcases Lexer.of_scanToken hScan with
    hError | ⟨ws, hSpace, ⟨hEnd, _⟩ | ⟨text, hLexeme, hIa⟩⟩
  · rw [hError] at hScalar
    cases hScalar
  · rw [hEnd] at hScalar
    cases hScalar
  · refine ⟨ws, text, hSpace, ?_, hIa⟩
    rw [hScalar] at hLexeme
    generalize (p.next strtod).lastToken = type at hLexeme
    cases hLexeme with
    | null => exact .null
    | true => exact .true
    | false => exact .false
    | string hText => exact .string hText
    | number _ hText => exact .number hText

/- A key, its separator and what comes after them. -/
theorem of_readKey
    {key : String}
    (hKey : (p.next strtod).readKey strtod = .ok (key, q)) :
    ∃ middle ws text ws', q = next strtod middle ∧
      middle.Started ∧
      Whitespace ws ∧ StringText text key ∧ Whitespace ws' ∧
      p.lexer.ia =
        ws ++ text ++ ws' ++ 0x3A :: middle.lexer.ia := by
  unfold readKey at hKey
  dsimp only at hKey
  split at hKey
  case isTrue => cases hKey
  case isFalse hString =>
    rw [(p.next_started strtod).getToken_eq] at hKey
    split at hKey
    case isTrue => cases hKey
    case isFalse hSeparator =>
      rw [(next_started strtod _).getToken_eq,
        Except.ok.injEq, Prod.mk.injEq] at hKey
      rcases hKey with ⟨rfl, rfl⟩
      rcases of_next_string (not_not.mp hString) with
        ⟨ws, text, hSpace, hText, hIa⟩
      rcases of_next_punctuation (not_not.mp hSeparator) rfl
        with ⟨ws', hSpace', hIa'⟩
      refine ⟨_, ws, text, ws', rfl, next_started strtod _,
        hSpace, hText, hSpace', ?_⟩
      rw [hIa, hIa', List.append_assoc _ ws']

------------------------------------------------------------
-- What Closes the Frames
------------------------------------------------------------

/-
  The text that closes what the parser is inside of, after a
  value, and the value that this comes to.
-/
def Closes
    (strtod : Strtod) : List Frame → Json → List UInt8 →
      Json → Prop
| [], value, tail, j => tail = [] ∧ j = value
| .array elements :: stack, value, tail, j =>
    ∃ rest tail' values, tail = rest ++ tail' ∧
      Derives strtod (.elements values) rest ∧
      Closes strtod stack
        (.array (elements ++ value :: values)) tail' j
| .object kept key :: stack, value, tail, j =>
    ∃ rest tail' entries, tail = rest ++ tail' ∧
      Derives strtod (.members entries) rest ∧
      Closes strtod stack
        (.object (setMembers (setMember key value kept)
          entries)) tail' j

/- A value, and what closes the frames after it. -/
def Yields
    (strtod : Strtod)
    (stack : List Frame)
    (input : List UInt8)
    (j : Json)
    (q : Parser) : Prop :=
  q.Started ∧ ∃ ws text value tail,
    Whitespace ws ∧ Derives strtod (.value value) text ∧
    input = ws ++ text ++ tail ++ q.lexer.ia ∧
    Closes strtod stack value tail j

/- The same when the value is there already. -/
def Finishes
    (strtod : Strtod)
    (stack : List Frame)
    (value : Json)
    (input : List UInt8)
    (j : Json)
    (q : Parser) : Prop :=
  q.Started ∧ ∃ tail, input = tail ++ q.lexer.ia ∧
    Closes strtod stack value tail j

theorem Finishes.yields
    {ws text input : List UInt8}
    {value j : Json}
    (hFinishes : Finishes strtod stack value rest j q)
    (hSpace : Whitespace ws)
    (hText : Derives strtod (.value value) text)
    (hInput : input = ws ++ text ++ rest) :
    Yields strtod stack input j q := by
  rcases hFinishes with ⟨hStarted, tail, rfl, hCloses⟩
  refine ⟨hStarted, ws, text, value, tail, hSpace, hText, ?_,
    hCloses⟩
  rw [hInput, List.append_assoc (ws ++ text)]

/- An array that is opened before what yields a value in it. -/
theorem Yields.array
    {input : List UInt8}
    {j : Json}
    (hYields : Yields strtod (.array [] :: stack) rest j q)
    (hSpace : Whitespace ws)
    (hInput : input = ws ++ 0x5B :: rest) :
    Yields strtod stack input j q := by
  rcases hYields with ⟨hStarted, ws', text, value, tail,
    hSpace', hText, rfl, rest', tail', values, rfl, hRest,
    hCloses⟩
  refine ⟨hStarted, ws, 0x5B :: ws' ++ text ++ rest',
    .array (value :: values), tail', hSpace,
    .array hSpace' hText hRest, ?_, hCloses⟩
  rw [hInput]
  simp

/- And an object before what yields one of a member. -/
theorem Yields.object
    {input before text after : List UInt8}
    {key : String}
    {j : Json}
    (hYields :
      Yields strtod (.object [] key :: stack) rest j q)
    (hSpace : Whitespace ws)
    (hBefore : Whitespace before)
    (hKey : StringText text key)
    (hAfter : Whitespace after)
    (hInput : input =
      ws ++ 0x7B :: (before ++ text ++ after ++ 0x3A :: rest)) :
    Yields strtod stack input j q := by
  rcases hYields with ⟨hStarted, ws', value, value', tail,
    hSpace', hText, rfl, rest', tail', entries, rfl, hRest,
    hCloses⟩
  have hMember : Derives strtod (.member key value')
      (text ++ after ++ 0x3A :: ws' ++ value) :=
    .member hKey hAfter hSpace' hText
  refine ⟨hStarted, ws, _, _, tail', hSpace,
    .object hBefore hMember hRest, ?_, hCloses⟩
  rw [hInput]
  simp

/- A further element. -/
theorem Yields.nextElement
    {input : List UInt8}
    {elements : List Json}
    {value j : Json}
    (hYields : Yields strtod
      (.array (elements ++ [value]) :: stack) rest j q)
    (hSpace : Whitespace ws)
    (hInput : input = ws ++ 0x2C :: rest) :
    Finishes strtod (.array elements :: stack) value input j
      q := by
  rcases hYields with ⟨hStarted, ws', text, value', tail,
    hSpace', hText, rfl, rest', tail', values, rfl, hRest,
    hCloses⟩
  refine ⟨hStarted, ws ++ 0x2C :: ws' ++ text ++ rest' ++ tail',
    ?_, _, tail', _, rfl,
    .nextElement hSpace hSpace' hText hRest, ?_⟩
  · rw [hInput]
    simp
  · rw [List.append_assoc] at hCloses
    exact hCloses

/- A further member. -/
theorem Yields.nextMember
    {input before text after : List UInt8}
    {kept : List (String × Json)}
    {key key' : String}
    {value j : Json}
    (hYields : Yields strtod
      (.object (setMember key value kept) key' :: stack) rest
      j q)
    (hSpace : Whitespace ws)
    (hBefore : Whitespace before)
    (hKey : StringText text key')
    (hAfter : Whitespace after)
    (hInput : input =
      ws ++ 0x2C :: (before ++ text ++ after ++ 0x3A :: rest)) :
    Finishes strtod (.object kept key :: stack) value input j
      q := by
  rcases hYields with ⟨hStarted, ws', text', value', tail,
    hSpace', hText, rfl, rest', tail', entries, rfl, hRest,
    hCloses⟩
  have hMember : Derives strtod (.member key' value')
      (text ++ after ++ 0x3A :: ws' ++ text') :=
    .member hKey hAfter hSpace' hText
  refine ⟨hStarted, _ ++ tail', ?_, _, tail', _, rfl,
    .nextMember hSpace hBefore hMember hRest, hCloses⟩
  rw [hInput]
  simp

/- The last element. -/
theorem Finishes.lastElement
    {input : List UInt8}
    {elements : List Json}
    {value j : Json}
    (hFinishes : Finishes strtod stack
      (.array (elements ++ [value])) rest j q)
    (hSpace : Whitespace ws)
    (hInput : input = ws ++ 0x5D :: rest) :
    Finishes strtod (.array elements :: stack) value input j
      q := by
  rcases hFinishes with ⟨hStarted, tail, rfl, hCloses⟩
  refine ⟨hStarted, ws ++ [0x5D] ++ tail, ?_, _, tail, [],
    rfl, .lastElement hSpace, hCloses⟩
  rw [hInput]
  simp

/- The last member. -/
theorem Finishes.lastMember
    {input : List UInt8}
    {kept : List (String × Json)}
    {key : String}
    {value j : Json}
    (hFinishes : Finishes strtod stack
      (.object (setMember key value kept)) rest j q)
    (hSpace : Whitespace ws)
    (hInput : input = ws ++ 0x7D :: rest) :
    Finishes strtod (.object kept key :: stack) value input j
      q := by
  rcases hFinishes with ⟨hStarted, tail, rfl, hCloses⟩
  refine ⟨hStarted, ws ++ [0x7D] ++ tail, ?_, _, tail, [],
    rfl, .lastMember hSpace, hCloses⟩
  rw [hInput]
  simp

/- Neither a value nor the start of one, so an error. -/
theorem parseValue_error
    {j : Json}
    {turns : Nat}
    (hScalar : p.lexer.scalar? p.lastToken = none)
    (hObject : p.lastToken ≠ .beginObject)
    (hArray : p.lastToken ≠ .beginArray) :
    parseValue strtod turns p stack ≠ .ok (j, q) := by
  intro hParse
  cases turns with
  | zero => cases hParse
  | succ turns =>
      rw [parseValue] at hParse
      unfold Lexer.scalar? at hScalar
      cases hToken : p.lastToken with
      | beginObject => exact hObject hToken
      | beginArray => exact hArray hToken
      | valueFloat =>
          rw [hToken] at hScalar hParse
          dsimp only at hScalar hParse
          cases hValue : p.lexer.valueFloat with
          | none =>
              rw [hValue] at hParse
              cases hParse
          | some value =>
              rw [hValue] at hScalar
              cases hScalar
      | _ =>
          rw [hToken] at hScalar hParse
          cases hScalar <;> cases hParse

------------------------------------------------------------
-- The Loop
------------------------------------------------------------

/- What is returned from a token on has been read. -/
def ParsesSoundly
    (strtod : Strtod)
    (turns : Nat) : Prop :=
  ∀ p stack j q,
    parseValue strtod turns (next strtod p) stack =
        .ok (j, q) →
      Yields strtod stack p.lexer.ia j q

/- And what is returned from a value on. -/
def EvaluatesSoundly
    (strtod : Strtod)
    (turns : Nat) : Prop :=
  ∀ p stack value j q, p.Started →
    evaluate strtod turns p stack value = .ok (j, q) →
      Finishes strtod stack value p.lexer.ia j q

/- A turn that starts on an opening brace. -/
theorem object_sound
    {turns : Nat}
    {j : Json}
    (hParses : ParsesSoundly strtod turns)
    (hEvaluates : EvaluatesSoundly strtod turns)
    (hObject : (p.next strtod).lastToken = .beginObject)
    (hParse : parseValue strtod (turns + 1) (p.next strtod)
      stack = .ok (j, q)) :
    Yields strtod stack p.lexer.ia j q := by
  have hStarted := p.next_started strtod
  rcases of_next_punctuation hObject rfl with
    ⟨ws, hSpace, hIa⟩
  rw [parseValue, hObject] at hParse
  dsimp only at hParse
  rw [hStarted.getToken_eq] at hParse
  split at hParse
  case isTrue hEnd =>
    rcases of_next_punctuation hEnd rfl with
      ⟨ws', hSpace', hIa'⟩
    have hRest := hEvaluates _ _ _ _ _
      (next_started strtod _) hParse
    refine hRest.yields hSpace (.emptyObject hSpace') ?_
    rw [hIa, hIa']
    simp
  case isFalse =>
    split at hParse
    case h_1 => cases hParse
    case h_2 key value hKey =>
      rcases of_readKey hKey with
        ⟨middle, before, text, after, rfl, hMiddle, hBefore,
          hText, hAfter, hIa'⟩
      have hRest := hParses _ _ _ _ hParse
      refine hRest.object hSpace hBefore hText hAfter ?_
      rw [hIa, hIa']

/- A turn that starts on an opening bracket. -/
theorem array_sound
    {turns : Nat}
    {j : Json}
    (hParses : ParsesSoundly strtod turns)
    (hEvaluates : EvaluatesSoundly strtod turns)
    (hArray : (p.next strtod).lastToken = .beginArray)
    (hParse : parseValue strtod (turns + 1) (p.next strtod)
      stack = .ok (j, q)) :
    Yields strtod stack p.lexer.ia j q := by
  have hStarted := p.next_started strtod
  rcases of_next_punctuation hArray rfl with
    ⟨ws, hSpace, hIa⟩
  rw [parseValue, hArray] at hParse
  dsimp only at hParse
  rw [hStarted.getToken_eq] at hParse
  split at hParse
  case isTrue hEnd =>
    rcases of_next_punctuation hEnd rfl with
      ⟨ws', hSpace', hIa'⟩
    have hRest := hEvaluates _ _ _ _ _
      (next_started strtod _) hParse
    refine hRest.yields hSpace (.emptyArray hSpace') ?_
    rw [hIa, hIa']
    simp
  case isFalse =>
    exact (hParses _ _ _ _ hParse).array hSpace hIa

/- One more turn, by the kind of its first token. -/
theorem parsesSoundly_succ
    {turns : Nat}
    (hParses : ParsesSoundly strtod turns)
    (hEvaluates : EvaluatesSoundly strtod turns) :
    ParsesSoundly strtod (turns + 1) := by
  intro p stack j q hParse
  cases hScalar : (p.next strtod).lexer.scalar?
      (p.next strtod).lastToken with
  | some value =>
      rw [parseValue_scalar hScalar] at hParse
      rcases of_next_scalar hScalar with
        ⟨ws, text, hSpace, hText, hIa⟩
      have hRest := hEvaluates _ _ _ _ _
        (next_started strtod p) hParse
      exact hRest.yields hSpace (.scalar hText) hIa
  | none =>
      by_cases hObject :
          (p.next strtod).lastToken = .beginObject
      · exact object_sound hParses hEvaluates hObject hParse
      by_cases hArray :
          (p.next strtod).lastToken = .beginArray
      · exact array_sound hParses hEvaluates hArray hParse
      · exact absurd hParse
          (parseValue_error hScalar hObject hArray)

/- What follows an element of an array. -/
theorem element_sound
    {turns : Nat}
    {elements : List Json}
    {value j : Json}
    (hParses : ParsesSoundly strtod turns)
    (hEvaluates : EvaluatesSoundly strtod turns)
    (hStarted : p.Started)
    (hEvaluate : evaluate strtod (turns + 1) p
      (.array elements :: stack) value = .ok (j, q)) :
    Finishes strtod (.array elements :: stack) value
      p.lexer.ia j q := by
  have hNext := p.next_started strtod
  rw [evaluate, hStarted.getToken_eq] at hEvaluate
  split at hEvaluate
  case isTrue hComma =>
    rw [hNext.getToken_eq] at hEvaluate
    rcases of_next_punctuation hComma rfl with
      ⟨ws, hSpace, hIa⟩
    exact (hParses _ _ _ _ hEvaluate).nextElement hSpace hIa
  case isFalse =>
    split at hEvaluate
    case isFalse => cases hEvaluate
    case isTrue hEnd =>
      rcases of_next_punctuation hEnd rfl with
        ⟨ws, hSpace, hIa⟩
      have hRest := hEvaluates _ _ _ _ _ hNext hEvaluate
      exact hRest.lastElement hSpace hIa

/- What follows a member of an object. -/
theorem member_sound
    {turns : Nat}
    {kept : List (String × Json)}
    {key : String}
    {value j : Json}
    (hParses : ParsesSoundly strtod turns)
    (hEvaluates : EvaluatesSoundly strtod turns)
    (hStarted : p.Started)
    (hEvaluate : evaluate strtod (turns + 1) p
      (.object kept key :: stack) value = .ok (j, q)) :
    Finishes strtod (.object kept key :: stack) value
      p.lexer.ia j q := by
  have hNext := p.next_started strtod
  rw [evaluate, hStarted.getToken_eq] at hEvaluate
  split at hEvaluate
  case isTrue hComma =>
    rw [hNext.getToken_eq] at hEvaluate
    rcases of_next_punctuation hComma rfl with
      ⟨ws, hSpace, hIa⟩
    split at hEvaluate
    case h_1 => cases hEvaluate
    case h_2 key' value' hKey =>
      rcases of_readKey hKey with
        ⟨middle, before, text, after, rfl, hMiddle, hBefore,
          hText, hAfter, hIa'⟩
      have hRest := hParses _ _ _ _ hEvaluate
      refine hRest.nextMember hSpace hBefore hText hAfter ?_
      rw [hIa, hIa']
  case isFalse =>
    split at hEvaluate
    case isFalse => cases hEvaluate
    case isTrue hEnd =>
      rcases of_next_punctuation hEnd rfl with
        ⟨ws, hSpace, hIa⟩
      have hRest := hEvaluates _ _ _ _ _ hNext hEvaluate
      exact hRest.lastMember hSpace hIa

/- One more turn, by the frame that the value goes to. -/
theorem evaluatesSoundly_succ
    {turns : Nat}
    (hParses : ParsesSoundly strtod turns)
    (hEvaluates : EvaluatesSoundly strtod turns) :
    EvaluatesSoundly strtod (turns + 1) := by
  intro p stack value j q hStarted hEvaluate
  cases stack with
  | nil =>
      rw [evaluate, Except.ok.injEq, Prod.mk.injEq]
        at hEvaluate
      rcases hEvaluate with ⟨rfl, rfl⟩
      exact ⟨hStarted, [], rfl, rfl, rfl⟩
  | cons frame stack =>
      cases frame with
      | array elements =>
          exact element_sound hParses hEvaluates hStarted
            hEvaluate
      | object kept key =>
          exact member_sound hParses hEvaluates hStarted
            hEvaluate

/-
  What the loop returns, it has read: from a token on, and
  from a value on.
-/
theorem parseValue_sound
    (strtod : Strtod)
    (turns : Nat) :
    ParsesSoundly strtod turns ∧
      EvaluatesSoundly strtod turns := by
  induction turns with
  | zero =>
      constructor
      · intro p stack j q hParse
        cases hParse
      · intro p stack value j q _ hEvaluate
        cases hEvaluate
  | succ turns ih =>
      exact ⟨parsesSoundly_succ ih.1 ih.2,
        evaluatesSoundly_succ ih.1 ih.2⟩

------------------------------------------------------------
-- Documents
------------------------------------------------------------

/- The mark is there, not there, or broken. -/
theorem skipBom_cases
    (lexer : Lexer) :
    lexer.skipBom.1 = false ∨
      lexer.skipBom.1 = true ∧ ∃ mark,
        (mark = [] ∨ mark = byteOrderMark) ∧
          lexer.ia = mark ++ lexer.skipBom.2.ia := by
  unfold Lexer.skipBom
  dsimp only
  split
  case isTrue hFirst =>
    split
    case isTrue hSecond =>
      by_cases hThird : lexer.get.get.get.current = some 0xBF
      · right
        refine ⟨decide_eq_true hThird, byteOrderMark,
          .inr rfl, ?_⟩
        rw [Lexer.get_current] at hFirst hSecond hThird
        rw [List.eq_cons_of_mem_head? hFirst,
          ← Lexer.get_ia lexer,
          List.eq_cons_of_mem_head? hSecond,
          ← Lexer.get_ia lexer.get,
          List.eq_cons_of_mem_head? hThird,
          ← Lexer.get_ia lexer.get.get]
        rfl
      · exact .inl (decide_eq_false hThird)
    case isFalse => exact .inl rfl
  case isFalse =>
    refine .inr ⟨rfl, [], .inl rfl, ?_⟩
    rw [Lexer.unget_get_ia]
    rfl

/- So the first token is an error, or that of the rest. -/
theorem opening_cases
    (strtod : Strtod)
    (body : List UInt8) :
    (opening strtod body).lastToken = .parseError ∨
      ∃ (mark : List UInt8) (p : Parser),
        (mark = [] ∨ mark = byteOrderMark) ∧
          body = mark ++ p.lexer.ia ∧
          opening strtod body = p.next strtod := by
  have hCases := skipBom_cases { ia := body }
  cases hBom : Lexer.skipBom { ia := body } with
  | mk found after =>
      rw [hBom] at hCases
      rcases hCases with hFalse | ⟨hTrue, mark, hMark, hInput⟩
      · change found = false at hFalse
        subst hFalse
        left
        rw [opening_of_broken hBom]
      · change found = true at hTrue
        subst hTrue
        exact .inr ⟨mark, ⟨after, .uninitialized⟩, hMark,
          hInput, opening_of_skipBom hBom⟩

/- A parser that is on an error returns no value. -/
theorem parseValue_of_parseError
    {turns : Nat}
    {j : Json}
    (hToken : p.lastToken = .parseError) :
    parseValue strtod turns p stack ≠ .ok (j, q) := by
  apply parseValue_error
  · rw [hToken]
    rfl
  · rw [hToken]
    decide
  · rw [hToken]
    decide

/- The end of the input after a value. -/
theorem of_next_endOfInput
    (hToken : (p.next strtod).lastToken = .endOfInput) :
    ∃ ws rest, Whitespace ws ∧ p.lexer.ia = ws ++ rest ∧
      (rest = [] ∨ rest.head? = some 0x00) := by
  have hScan : p.lexer.scanToken strtod =
      (.endOfInput, (p.next strtod).lexer) := by
    rw [← hToken]
    rfl
  rcases Lexer.of_scanToken hScan with
    hError |
    ⟨ws, hSpace, ⟨_, ⟨hIa, _⟩ | hIa⟩ | ⟨text, hLexeme, hIa⟩⟩
  · cases hError
  · exact ⟨ws, [], hSpace, by rw [hIa, List.append_nil],
      .inl rfl⟩
  · exact ⟨ws, _, hSpace, hIa, .inr rfl⟩
  · generalize (p.next strtod).lexer.scalar? .endOfInput =
      value at hLexeme
    cases hLexeme with
    | punctuation hByte => cases hByte
    | number hType =>
        rcases hType with hType | hType | hType
        all_goals cases hType

end Parser

/- What is parsed is a document with the value. -/
theorem document_of_parse
    {body : List UInt8}
    {j : Json}
    (hParse : parse strtod body = .ok j) :
    Document strtod body j := by
  unfold parse at hParse
  split at hParse
  case h_1 => cases hParse
  case h_2 value q hValue =>
    dsimp only at hParse
    split at hParse
    case isTrue => cases hParse
    case isFalse hEnd =>
      cases hParse
      rcases Parser.opening_cases strtod body with
        hError | ⟨mark, p, hMark, hBody, hOpening⟩
      · exact absurd hValue
          (Parser.parseValue_of_parseError hError)
      · rw [hOpening] at hValue
        rcases (Parser.parseValue_sound strtod _).1 _ _ _ _
          hValue with
          ⟨hStarted, ws, text, value', tail, hSpace, hText,
            hInput, rfl, rfl⟩
        rw [hStarted.getToken_eq] at hEnd
        rcases Parser.of_next_endOfInput (not_not.mp hEnd) with
          ⟨ws', rest, hSpace', hIa, hRest⟩
        refine ⟨mark, ws, text, ws', rest, ?_, hMark, hSpace,
          hSpace', hText, hRest⟩
        rw [hBody, hInput, hIa]
        simp

/-
  The program takes a body for a value exactly when the body
  is a JSON text of it.
-/
theorem parse_eq_ok_iff
    (strtod : Strtod)
    (body : List UInt8)
    (j : Json) :
    parse strtod body = .ok j ↔ Document strtod body j :=
  ⟨document_of_parse, parse_of_document⟩

end Json

end Poker

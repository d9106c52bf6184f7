import AsciiPoker.Common.Json.Numbers

/-
  The tokens that the lexer reads.

  Main declarations:
    * `Lexeme`
    * `Lexer.of_scanToken`
    * `Lexer.scanToken_punctuation`, `Lexer.scanToken_scalar`,
      `Lexer.scanToken_end`
-/

namespace Poker

namespace Json

variable {strtod : Strtod}
variable {b : UInt8}
variable {ws text rest : List UInt8}

------------------------------------------------------------
-- Lexemes
------------------------------------------------------------

/- The byte that a token of one byte is. -/
def punctuation : TokenType → Option UInt8
| .beginArray => some 0x5B
| .endArray => some 0x5D
| .beginObject => some 0x7B
| .endObject => some 0x7D
| .nameSeparator => some 0x3A
| .valueSeparator => some 0x2C
| _ => none

/- The text of a token and the value it has, if any. -/
inductive Lexeme
    (strtod : Strtod) :
    TokenType → Option Json → List UInt8 → Prop
  | punctuation
      {type : TokenType}
      {b : UInt8}
      (hByte : punctuation type = some b) :
      Lexeme strtod type none [b]
  | null :
      Lexeme strtod .literalNull (some .null)
        [0x6E, 0x75, 0x6C, 0x6C]
  | true :
      Lexeme strtod .literalTrue (some (.boolean true))
        [0x74, 0x72, 0x75, 0x65]
  | false :
      Lexeme strtod .literalFalse (some (.boolean false))
        [0x66, 0x61, 0x6C, 0x73, 0x65]
  | string
      {text : List UInt8}
      {s : String}
      (hText : StringText text s) :
      Lexeme strtod .valueString (some (.string s)) text
  | number
      {type : TokenType}
      {text : List UInt8}
      {value : Option Json}
      (hType : Lexer.IsNumber type)
      (hText : NumberText strtod text value) :
      Lexeme strtod type value text

namespace Lexer

variable {lexer lexer' : Lexer}
variable {type : TokenType}

------------------------------------------------------------
-- Space
------------------------------------------------------------

theorem isWhitespace_iff :
    isWhitespace b = true ↔
      b = 0x20 ∨ b = 0x09 ∨ b = 0x0A ∨ b = 0x0D := by
  unfold isWhitespace
  simp only [Bool.or_eq_true, decide_eq_true_eq, or_assoc]

theorem whitespace_cons :
    Whitespace (b :: text) ↔
      isWhitespace b = true ∧ Whitespace text := by
  unfold Whitespace
  rw [List.forall_mem_cons, isWhitespace_iff]

theorem whitespace_nil : Whitespace [] := by
  intro b hMem
  cases hMem

/- The lexer is on the first byte of what is left. -/
def Stands
    (lexer : Lexer)
    (input : List UInt8) : Prop :=
  lexer.current = input.head? ∧ lexer.ia = input.tail

theorem get_stands
    (lexer : Lexer) :
    lexer.get.Stands lexer.ia :=
  ⟨get_current lexer, get_ia lexer⟩

theorem skipWhitespaceLoop_stands
    {turns : Nat}
    (hSpace : Whitespace ws)
    (hInput : lexer.ia = ws ++ rest)
    (hStop : ∀ b ∈ rest.head?, isWhitespace b = false)
    (hTurns : ws.length ≤ turns) :
    (skipWhitespaceLoop turns lexer).Stands rest := by
  induction ws generalizing lexer turns with
  | nil =>
      rw [List.nil_append] at hInput
      have hGet := lexer.get_stands
      rw [hInput] at hGet
      cases turns with
      | zero => exact hGet
      | succ turns =>
          rw [skipWhitespaceLoop, if_neg]
          · exact hGet
          · rw [hGet.1]
            cases hHead : rest.head? with
            | none => simp
            | some b => simp [hStop b hHead]
  | cons b ws ih =>
      rw [whitespace_cons] at hSpace
      obtain ⟨turns, rfl⟩ := Nat.exists_eq_succ_of_ne_zero
        (Nat.ne_of_gt (Nat.zero_lt_of_lt hTurns))
      have hGet := lexer.get_stands
      rw [hInput] at hGet
      rw [skipWhitespaceLoop, if_pos]
      · exact ih hSpace.2 hGet.2
          (Nat.le_of_succ_le_succ hTurns)
      · rw [hGet.1]
        exact hSpace.1

/- Space is skipped up to the first other byte. -/
theorem skipWhitespace_stands
    (hSpace : Whitespace ws)
    (hInput : lexer.ia = ws ++ rest)
    (hStop : ∀ b ∈ rest.head?, isWhitespace b = false) :
    lexer.skipWhitespace.Stands rest := by
  refine skipWhitespaceLoop_stands hSpace hInput hStop ?_
  rw [hInput, List.length_append]
  exact Nat.le_add_right _ _

/- Every input is space and then no space. -/
theorem exists_whitespace
    (input : List UInt8) :
    ∃ ws rest, input = ws ++ rest ∧ Whitespace ws ∧
      ∀ b ∈ rest.head?, isWhitespace b = false := by
  induction input with
  | nil =>
      refine ⟨[], [], rfl, whitespace_nil, ?_⟩
      intro b hHead
      cases hHead
  | cons b input ih =>
      cases hSpace : isWhitespace b with
      | true =>
          rcases ih with ⟨ws, rest, rfl, hWs, hRest⟩
          exact ⟨b :: ws, rest, rfl,
            whitespace_cons.mpr ⟨hSpace, hWs⟩, hRest⟩
      | false =>
          refine ⟨[], b :: input, rfl, whitespace_nil, ?_⟩
          intro c hHead
          cases hHead
          exact hSpace

------------------------------------------------------------
-- Literals
------------------------------------------------------------

theorem scanLiteral_of_text
    {type : TokenType}
    (hInput : lexer.ia = text ++ rest) :
    ∃ lexer', scanLiteral text type lexer = (type, lexer') ∧
      lexer'.ia = rest := by
  induction text generalizing lexer with
  | nil => exact ⟨lexer, rfl, hInput⟩
  | cons b text ih =>
      have hGet := lexer.get_stands
      rw [hInput] at hGet
      rcases ih hGet.2 with ⟨lexer', hScan, hIa⟩
      refine ⟨lexer', ?_, hIa⟩
      have hCurrent : lexer.get.current = some b := hGet.1
      rw [scanLiteral, if_pos hCurrent, hScan]

theorem of_scanLiteral
    {type' : TokenType}
    (hScan : scanLiteral text type lexer = (type', lexer')) :
    type' = .parseError ∨
      type' = type ∧ lexer.ia = text ++ lexer'.ia := by
  induction text generalizing lexer with
  | nil =>
      cases hScan
      exact .inr ⟨rfl, rfl⟩
  | cons b text ih =>
      rw [scanLiteral] at hScan
      split at hScan
      case isFalse =>
        cases hScan
        exact .inl rfl
      case isTrue hCurrent =>
        rw [get_current, List.head?_eq_some_iff] at hCurrent
        rcases hCurrent with ⟨tail, hInput⟩
        rcases ih hScan with hError | ⟨hType, hIa⟩
        · exact .inl hError
        · rw [get_ia, hInput, List.tail_cons] at hIa
          exact .inr ⟨hType, by rw [hInput, hIa,
            List.cons_append]⟩

------------------------------------------------------------
-- Tokens
------------------------------------------------------------

/- A token that is one byte. -/
theorem scanToken_punctuation
    (strtod : Strtod)
    (hByte : punctuation type = some b)
    (hSpace : Whitespace ws)
    (hInput : lexer.ia = ws ++ b :: rest) :
    ∃ lexer', lexer.scanToken strtod = (type, lexer') ∧
      lexer'.ia = rest := by
  have hStop : isWhitespace b = false := by
    cases type <;> cases hByte <;> rfl
  have hStands : lexer.skipWhitespace.Stands (b :: rest) := by
    refine skipWhitespace_stands hSpace hInput ?_
    intro c hHead
    cases hHead
    exact hStop
  refine ⟨lexer.skipWhitespace, ?_, hStands.2⟩
  rw [scanToken, scanCurrent, hStands.1]
  cases type <;> cases hByte <;> rfl

/- The end of the input, or a null byte. -/
theorem scanToken_end
    (hSpace : Whitespace ws)
    (hInput : lexer.ia = ws ++ rest)
    (hEnd : rest = [] ∨ rest.head? = some 0x00) :
    (lexer.scanToken strtod).1 = .endOfInput := by
  have hStands : lexer.skipWhitespace.Stands rest := by
    refine skipWhitespace_stands hSpace hInput ?_
    rcases hEnd with rfl | hNull
    · intro c hHead
      cases hHead
    · rw [hNull]
      intro c hHead
      cases hHead
      rfl
  rw [scanToken, scanCurrent, hStands.1]
  rcases hEnd with rfl | hNull
  · rfl
  · rw [hNull]
    rfl

/- A string. -/
theorem scanToken_string
    (strtod : Strtod)
    {s : String}
    (hText : StringText text s)
    (hSpace : Whitespace ws)
    (hInput : lexer.ia = ws ++ text ++ rest) :
    ∃ lexer', lexer.scanToken strtod =
        (.valueString, lexer') ∧
      lexer'.ia = rest ∧ lexer'.getString = s := by
  obtain ⟨tail, rfl⟩ : ∃ tail, text = 0x22 :: tail := by
    rcases hText with ⟨inner, rfl, _⟩
    exact ⟨_, rfl⟩
  rw [List.append_assoc] at hInput
  have hStands : lexer.skipWhitespace.Stands
      (0x22 :: (tail ++ rest)) := by
    refine skipWhitespace_stands hSpace hInput ?_
    intro c hHead
    cases hHead
    rfl
  rw [scanToken, scanCurrent, hStands.1]
  exact scanString_of_text hText hStands.2

theorem scanCurrent_number
    (hStart : b = 0x2D ∨ isDigit b = true)
    (hCurrent : lexer.current = some b) :
    lexer.scanCurrent strtod = lexer.scanNumber strtod := by
  unfold scanCurrent
  rw [hCurrent]
  dsimp only
  split
  case h_12 => rw [if_pos hStart]
  all_goals exact absurd hStart (by decide)

theorem not_isWhitespace_of_start
    (hStart : b = 0x2D ∨ isDigit b = true) :
    isWhitespace b = false := by
  rw [← Bool.not_eq_true, isWhitespace_iff]
  rintro (rfl | rfl | rfl | rfl)
  all_goals exact absurd hStart (by decide)

/- A number. -/
theorem scanToken_number
    {value : Option Json}
    (hText : NumberText strtod text value)
    (hSpace : Whitespace ws)
    (hInput : lexer.ia = ws ++ text ++ rest)
    (hStops : Stops rest) :
    ∃ type lexer', lexer.scanToken strtod =
        (type, lexer') ∧
      IsNumber type ∧ lexer'.ia = rest ∧
      lexer'.scalar? type = value := by
  cases text with
  | nil => exact absurd hText numberText_ne_nil
  | cons b tail =>
      have hStart := numberText_head hText
      rw [List.append_assoc] at hInput
      have hStands : lexer.skipWhitespace.Stands
          (b :: (tail ++ rest)) := by
        refine skipWhitespace_stands hSpace hInput ?_
        intro c hHead
        cases hHead
        exact not_isWhitespace_of_start hStart
      rw [scanToken, scanCurrent_number hStart hStands.1]
      exact scanNumber_of_text hText hStands.1 hStands.2
        hStops

/- A literal. -/
theorem scanToken_literal
    {tail : List UInt8}
    (hSpace : Whitespace ws)
    (hInput : lexer.ia = ws ++ (b :: tail) ++ rest)
    (hStop : isWhitespace b = false)
    (hLiteral : ∀ lexer : Lexer, lexer.current = some b →
      lexer.scanCurrent strtod =
        scanLiteral tail type lexer) :
    ∃ lexer', lexer.scanToken strtod = (type, lexer') ∧
      lexer'.ia = rest := by
  rw [List.append_assoc] at hInput
  have hStands : lexer.skipWhitespace.Stands
      (b :: (tail ++ rest)) := by
    refine skipWhitespace_stands hSpace hInput ?_
    intro c hHead
    cases hHead
    exact hStop
  rw [scanToken, hLiteral _ hStands.1]
  exact scanLiteral_of_text hStands.2

/- A value that is one token. -/
theorem scanToken_scalar
    {j : Json}
    (hText : Scalar strtod text j)
    (hSpace : Whitespace ws)
    (hInput : lexer.ia = ws ++ text ++ rest)
    (hStops : Stops rest) :
    ∃ type lexer', lexer.scanToken strtod =
        (type, lexer') ∧
      lexer'.ia = rest ∧
      lexer'.scalar? type = some j := by
  cases hText with
  | null =>
      have hLiteral : ∀ lexer : Lexer,
          lexer.current = some 0x6E →
            lexer.scanCurrent strtod =
              scanLiteral [0x75, 0x6C, 0x6C] .literalNull lexer := by
        intro lexer hCurrent
        rw [scanCurrent, hCurrent]
        rfl
      rcases scanToken_literal hSpace hInput rfl hLiteral with
        ⟨lexer', hScan, hIa⟩
      exact ⟨.literalNull, lexer', hScan, hIa, rfl⟩
  | true =>
      have hLiteral : ∀ lexer : Lexer,
          lexer.current = some 0x74 →
            lexer.scanCurrent strtod =
              scanLiteral [0x72, 0x75, 0x65] .literalTrue lexer := by
        intro lexer hCurrent
        rw [scanCurrent, hCurrent]
        rfl
      rcases scanToken_literal hSpace hInput rfl hLiteral with
        ⟨lexer', hScan, hIa⟩
      exact ⟨.literalTrue, lexer', hScan, hIa, rfl⟩
  | false =>
      have hLiteral : ∀ lexer : Lexer,
          lexer.current = some 0x66 →
            lexer.scanCurrent strtod =
              scanLiteral [0x61, 0x6C, 0x73, 0x65] .literalFalse lexer := by
        intro lexer hCurrent
        rw [scanCurrent, hCurrent]
        rfl
      rcases scanToken_literal hSpace hInput rfl hLiteral with
        ⟨lexer', hScan, hIa⟩
      exact ⟨.literalFalse, lexer', hScan, hIa, rfl⟩
  | string hText =>
      rcases scanToken_string strtod hText hSpace hInput with
        ⟨lexer', hScan, hIa, hString⟩
      exact ⟨.valueString, lexer', hScan, hIa,
        by rw [scalar?, hString]⟩
  | number hText =>
      rcases scanToken_number hText hSpace hInput hStops with
        ⟨type, lexer', hScan, _, hIa, hValue⟩
      exact ⟨type, lexer', hScan, hIa, hValue⟩

------------------------------------------------------------
-- What Is Read
------------------------------------------------------------

theorem skipWhitespace_spec
    (lexer : Lexer) :
    ∃ ws rest, lexer.ia = ws ++ rest ∧ Whitespace ws ∧
      lexer.skipWhitespace.Stands rest := by
  rcases exists_whitespace lexer.ia with
    ⟨ws, rest, hInput, hSpace, hStop⟩
  exact ⟨ws, rest, hInput, hSpace,
    skipWhitespace_stands hSpace hInput hStop⟩

/- A token is an error, the end, or a lexeme that was there. -/
theorem of_scanCurrent
    (hCurrent : lexer.current = some b)
    (hScan : lexer.scanCurrent strtod = (type, lexer')) :
    type = .parseError ∨
      (type = .endOfInput ∧ b = 0x00 ∧ lexer' = lexer) ∨
      ∃ text, Lexeme strtod type (lexer'.scalar? type)
          (b :: text) ∧
        lexer.ia = text ++ lexer'.ia := by
  unfold scanCurrent at hScan
  rw [hCurrent] at hScan
  dsimp only at hScan
  split at hScan
  case h_7 =>
    rcases of_scanLiteral hScan with hError | ⟨rfl, hIa⟩
    · exact .inl hError
    · exact .inr (.inr ⟨_, .true, hIa⟩)
  case h_8 =>
    rcases of_scanLiteral hScan with hError | ⟨rfl, hIa⟩
    · exact .inl hError
    · exact .inr (.inr ⟨_, .false, hIa⟩)
  case h_9 =>
    rcases of_scanLiteral hScan with hError | ⟨rfl, hIa⟩
    · exact .inl hError
    · exact .inr (.inr ⟨_, .null, hIa⟩)
  case h_10 =>
    rcases of_scanString hScan with
      hError | ⟨rfl, text, hText, hIa⟩
    · exact .inl hError
    · exact .inr (.inr ⟨text, .string hText, hIa⟩)
  case h_11 =>
    cases hScan
    exact .inr (.inl ⟨rfl, rfl, rfl⟩)
  case h_12 =>
    split at hScan
    case isTrue hStart =>
      rcases of_scanNumber hStart hCurrent hScan with
        hError | ⟨hType, text, hText, hIa⟩
      · exact .inl hError
      · exact .inr (.inr ⟨text, .number hType hText, hIa⟩)
    case isFalse =>
      cases hScan
      exact .inl rfl
  all_goals
    cases hScan
    exact .inr (.inr ⟨[], .punctuation rfl, rfl⟩)

/- The same for a token with the space before it. -/
theorem of_scanToken
    (hScan : lexer.scanToken strtod = (type, lexer')) :
    type = .parseError ∨
      ∃ ws, Whitespace ws ∧
        ((type = .endOfInput ∧
            ((lexer.ia = ws ∧ lexer'.ia = []) ∨
              lexer.ia = ws ++ 0x00 :: lexer'.ia)) ∨
          ∃ text, Lexeme strtod type (lexer'.scalar? type)
              text ∧
            lexer.ia = ws ++ text ++ lexer'.ia) := by
  rcases lexer.skipWhitespace_spec with
    ⟨ws, rest, hInput, hSpace, hCurrent, hIa⟩
  cases rest with
  | nil =>
      rw [scanToken, scanCurrent, hCurrent] at hScan
      cases hScan
      rw [List.append_nil] at hInput
      exact .inr ⟨ws, hSpace, .inl ⟨rfl, .inl ⟨hInput, hIa⟩⟩⟩
  | cons b rest =>
      rcases of_scanCurrent hCurrent hScan with
        hError | ⟨rfl, rfl, rfl⟩ | ⟨text, hLexeme, hText⟩
      · exact .inl hError
      · have hRest : lexer.skipWhitespace.ia = rest := hIa
        rw [← hRest] at hInput
        exact .inr ⟨ws, hSpace, .inl ⟨rfl, .inr hInput⟩⟩
      · refine .inr ⟨ws, hSpace, .inr ⟨b :: text, hLexeme, ?_⟩⟩
        rw [hIa, List.tail_cons] at hText
        rw [hInput, hText, List.append_assoc,
          List.cons_append]

end Lexer

end Json

end Poker

import AsciiPoker.Common.Json.Invariants

/-
  Every document is parsed as the value that it has.

  Main declarations:
    * `Parser.Reads`, `Derives.reads`
    * `parse_of_document`
-/

namespace Poker

namespace Json

variable {strtod : Strtod}
variable {b : UInt8}
variable {ws text rest : List UInt8}

open Lexer (Stops)

------------------------------------------------------------
-- Tokens
------------------------------------------------------------

namespace Parser

variable {p q : Parser}
variable {stack : List Frame}
variable {type : TokenType}

/- The parser has read something. -/
def Started
    (p : Parser) : Prop :=
  p.lexer.Started

/- The parser with the next token, once it has started. -/
def next
    (strtod : Strtod)
    (p : Parser) : Parser :=
  ⟨(p.lexer.scanToken strtod).2,
    (p.lexer.scanToken strtod).1⟩

/- No mark is looked for any more. -/
theorem Started.getToken_eq
    (hStarted : p.Started) :
    p.getToken strtod = p.next strtod := by
  rw [getToken, hStarted.scan_eq, next]

/- A token has been read. -/
theorem next_started
    (strtod : Strtod)
    (p : Parser) :
    (p.next strtod).Started :=
  Lexer.started_scanToken strtod p.lexer

/- What the lexer returns is kept by the parser. -/
theorem next_eq
    {lexer' : Lexer}
    (hScan : p.lexer.scanToken strtod = (type, lexer')) :
    p.next strtod = ⟨lexer', type⟩ := by
  rw [next, hScan]

/- The next token is one byte. -/
theorem next_punctuation
    (strtod : Strtod)
    (type : TokenType)
    (hByte : punctuation type = some b)
    (hSpace : Whitespace ws)
    (hInput : p.lexer.ia = ws ++ b :: rest) :
    (p.next strtod).lastToken = type ∧
      (p.next strtod).lexer.ia = rest := by
  rcases Lexer.scanToken_punctuation strtod hByte hSpace
    hInput with ⟨lexer', hScan, hIa⟩
  rw [next_eq hScan]
  exact ⟨rfl, hIa⟩

/- A value that is one token leads to the evaluation. -/
theorem parseValue_scalar
    {j : Json}
    (hScalar : p.lexer.scalar? p.lastToken = some j)
    (turns : Nat) :
    parseValue strtod (turns + 1) p stack =
      evaluate strtod turns p stack j := by
  rw [parseValue]
  unfold Lexer.scalar? at hScalar
  cases hToken : p.lastToken with
  | valueFloat =>
      rw [hToken] at hScalar
      dsimp only at hScalar ⊢
      cases hValue : p.lexer.valueFloat with
      | none =>
          rw [hValue] at hScalar
          cases hScalar
      | some value =>
          rw [hValue] at hScalar
          cases hScalar
          rfl
  | _ =>
      rw [hToken] at hScalar
      cases hScalar <;> rfl

------------------------------------------------------------
-- What Follows
------------------------------------------------------------

/- No number goes on with another byte. -/
theorem stops_cons
    (hByte : Lexer.isDigit b = false ∧
      Lexer.isExponent b = false ∧ b ≠ 0x2E) :
    Stops (b :: rest) := by
  intro c hHead
  cases hHead
  exact hByte

/- Nor with a blank. -/
theorem stops_append
    (hSpace : Whitespace ws)
    (hStops : Stops rest) :
    Stops (ws ++ rest) := by
  cases ws with
  | nil => exact hStops
  | cons b ws =>
      apply stops_cons
      rcases hSpace b List.mem_cons_self with
        rfl | rfl | rfl | rfl
      all_goals decide

/- A phrase that follows a value. -/
def Follows : Phrase → Prop
| .elements _ => True
| .members _ => True
| _ => False

/- Nor with what may follow a value. -/
theorem stops_of_follows
    {phrase : Phrase}
    (hText : Derives strtod phrase text)
    (hFollows : Follows phrase) :
    Stops (text ++ rest) := by
  cases hText with
  | lastElement hSpace =>
      rw [List.append_assoc]
      exact stops_append hSpace (stops_cons (by decide))
  | nextElement hSpace =>
      simp only [List.append_assoc]
      exact stops_append hSpace (stops_cons (by decide))
  | lastMember hSpace =>
      rw [List.append_assoc]
      exact stops_append hSpace (stops_cons (by decide))
  | nextMember hSpace =>
      simp only [List.append_assoc]
      exact stops_append hSpace (stops_cons (by decide))
  | _ => cases hFollows

------------------------------------------------------------
-- Phrases
------------------------------------------------------------

/- Members are set one after another. -/
def setMembers
    (kept entries : List (String × Json)) :
    List (String × Json) :=
  entries.foldl
    (fun kept entry => setMember entry.1 entry.2 kept) kept

/-
  What the parser does on a text of a phrase that it has not
  looked at yet, in at most two turns for each byte: it gets
  to the evaluation of a value, or of what the value that it
  evaluates is in.
-/
def Reads
    (strtod : Strtod)
    (text : List UInt8) : Phrase → Prop
| .value j =>
    ∀ (p : Parser) (ws rest : List UInt8),
      Whitespace ws → p.lexer.ia = ws ++ text ++ rest →
      Stops rest →
      (p.next strtod).lastToken ≠ .endArray ∧
      ∃ used q, used ≤ 2 * text.length ∧ q.Started ∧
        q.lexer.ia = rest ∧ ∀ turns stack,
          parseValue strtod (turns + used)
              (p.next strtod) stack =
            evaluate strtod turns q stack j
| .member key j =>
    ∀ (p : Parser) (ws rest : List UInt8),
      Whitespace ws → p.lexer.ia = ws ++ text ++ rest →
      Stops rest →
      (p.next strtod).lastToken = .valueString ∧
      ∃ value used q,
        (p.next strtod).readKey strtod =
          .ok (key, value) ∧
        used ≤ 2 * text.length ∧ q.Started ∧
        q.lexer.ia = rest ∧ ∀ turns stack,
          parseValue strtod (turns + used) value stack =
            evaluate strtod turns q stack j
| .elements values =>
    ∀ (p : Parser) (rest : List UInt8) (elements : List Json)
      (j : Json), p.Started → p.lexer.ia = text ++ rest →
      ∃ used q, used ≤ 2 * text.length ∧ q.Started ∧
        q.lexer.ia = rest ∧ ∀ turns stack,
          evaluate strtod (turns + used) p
              (.array elements :: stack) j =
            evaluate strtod turns q stack
              (.array (elements ++ j :: values))
| .members entries =>
    ∀ (p : Parser) (rest : List UInt8)
      (kept : List (String × Json)) (key : String) (j : Json),
      p.Started → p.lexer.ia = text ++ rest →
      ∃ used q, used ≤ 2 * text.length ∧ q.Started ∧
        q.lexer.ia = rest ∧ ∀ turns stack,
          evaluate strtod (turns + used) p
              (.object kept key :: stack) j =
            evaluate strtod turns q stack
              (.object (setMembers (setMember key j kept)
                entries))

/- A scalar is one token, with its value. -/
theorem next_scalar
    {j : Json}
    (hText : Scalar strtod text j)
    (hSpace : Whitespace ws)
    (hInput : p.lexer.ia = ws ++ text ++ rest)
    (hStops : Stops rest) :
    (p.next strtod).lexer.scalar?
        (p.next strtod).lastToken = some j ∧
      (p.next strtod).lexer.ia = rest := by
  rcases Lexer.scanToken_scalar hText hSpace hInput hStops with
    ⟨type, lexer', hScan, hIa, hScalar⟩
  rw [next_eq hScan]
  exact ⟨hScalar, hIa⟩

/- So is a string, which may also be a key. -/
theorem next_string
    {s : String}
    (hText : StringText text s)
    (hSpace : Whitespace ws)
    (hInput : p.lexer.ia = ws ++ text ++ rest) :
    (p.next strtod).lastToken = .valueString ∧
      (p.next strtod).lexer.ia = rest ∧
      (p.next strtod).lexer.getString = s := by
  rcases Lexer.scanToken_string strtod hText hSpace hInput with
    ⟨lexer', hScan, hIa, hString⟩
  rw [next_eq hScan]
  exact ⟨rfl, hIa, hString⟩

/- No scalar is written as nothing. -/
theorem scalar_length_pos
    {j : Json}
    (hText : Scalar strtod text j) :
    0 < text.length := by
  cases hText with
  | null => decide
  | true => decide
  | false => decide
  | string hText =>
      rcases hText with ⟨inner, rfl, _⟩
      exact Nat.succ_pos _
  | number hText =>
      refine List.length_pos_iff.mpr ?_
      rintro rfl
      exact Lexer.numberText_ne_nil hText

/- The value of the token is the value. -/
theorem reads_scalar
    {j : Json}
    (hText : Scalar strtod text j) :
    Reads strtod text (.value j) := by
  intro p ws rest hSpace hInput hStops
  rcases next_scalar hText hSpace hInput hStops with
    ⟨hScalar, hIa⟩
  have hLength := scalar_length_pos hText
  refine ⟨?_, 1, p.next strtod, by omega,
    p.next_started strtod, hIa, ?_⟩
  · intro hEnd
    rw [hEnd] at hScalar
    cases hScalar
  · intro turns stack
    exact parseValue_scalar hScalar turns

/- A bracket and its counterpart with nothing in between. -/
theorem next_brackets
    {first last : UInt8}
    (strtod : Strtod)
    (opens closes : TokenType)
    (hFirst : punctuation opens = some first)
    (hLast : punctuation closes = some last)
    (hSpace : Whitespace ws)
    (hInside : Whitespace text)
    (hInput : p.lexer.ia =
      ws ++ (first :: text ++ [last]) ++ rest) :
    (p.next strtod).lastToken = opens ∧
      ((p.next strtod).getToken strtod).lastToken = closes ∧
      ((p.next strtod).getToken strtod).lexer.ia = rest ∧
      ((p.next strtod).getToken strtod).Started := by
  have hOpen : p.lexer.ia =
      ws ++ first :: (text ++ last :: rest) := by
    rw [hInput]
    simp
  rcases next_punctuation strtod opens hFirst hSpace hOpen with
    ⟨hToken, hIa⟩
  rw [(p.next_started strtod).getToken_eq]
  rcases next_punctuation strtod closes hLast hInside hIa with
    ⟨hToken', hIa'⟩
  exact ⟨hToken, hToken', hIa', next_started strtod _⟩

/- The bracket is closed at once. -/
theorem reads_emptyArray
    (hInside : Whitespace text) :
    Reads strtod (0x5B :: text ++ [0x5D])
      (.value (.array [])) := by
  intro p ws rest hSpace hInput hStops
  rcases next_brackets strtod .beginArray .endArray rfl rfl
    hSpace hInside hInput with ⟨hToken, hToken', hIa, hStarted⟩
  refine ⟨by rw [hToken]; decide, 1,
    (p.next strtod).getToken strtod, ?_, hStarted, hIa, ?_⟩
  · simp only [List.length_append, List.length_cons]
    omega
  · intro turns stack
    rw [parseValue, hToken]
    dsimp only
    rw [if_pos hToken']

/- So is the brace. -/
theorem reads_emptyObject
    (hInside : Whitespace text) :
    Reads strtod (0x7B :: text ++ [0x7D])
      (.value (.object [])) := by
  intro p ws rest hSpace hInput hStops
  rcases next_brackets strtod .beginObject .endObject rfl rfl
    hSpace hInside hInput with ⟨hToken, hToken', hIa, hStarted⟩
  refine ⟨by rw [hToken]; decide, 1,
    (p.next strtod).getToken strtod, ?_, hStarted, hIa, ?_⟩
  · simp only [List.length_append, List.length_cons]
    omega
  · intro turns stack
    rw [parseValue, hToken]
    dsimp only
    rw [if_pos hToken']

/- The first element, and then the others. -/
theorem reads_array
    {ws first rest : List UInt8}
    {j : Json}
    {values : List Json}
    (hSpace : Whitespace ws)
    (hRest : Derives strtod (.elements values) rest)
    (hFirstReads : Reads strtod first (.value j))
    (hRestReads : Reads strtod rest (.elements values)) :
    Reads strtod (0x5B :: ws ++ first ++ rest)
      (.value (.array (j :: values))) := by
  intro p before after hBefore hInput hStops
  have hOpen : p.lexer.ia =
      before ++ 0x5B :: (ws ++ first ++ (rest ++ after)) := by
    rw [hInput]
    simp
  rcases next_punctuation strtod .beginArray rfl hBefore hOpen
    with ⟨hToken, hIa⟩
  rcases hFirstReads _ ws (rest ++ after) hSpace hIa
    (stops_of_follows hRest trivial) with
    ⟨hNotEnd, used, q, hUsed, hStarted, hIa', hParse⟩
  rcases hRestReads q after [] j hStarted hIa' with
    ⟨used', q', hUsed', hStarted', hIa'', hEvaluate⟩
  refine ⟨by rw [hToken]; decide, used' + used + 1, q', ?_,
    hStarted', hIa'', ?_⟩
  · simp only [List.length_append, List.length_cons]
    omega
  · intro turns stack
    rw [← Nat.add_assoc, parseValue, hToken]
    dsimp only
    rw [(p.next_started strtod).getToken_eq, if_neg hNotEnd,
      ← Nat.add_assoc, hParse, hEvaluate, List.nil_append]

/- The first member, and then the others. -/
theorem reads_object
    {ws first rest : List UInt8}
    {key : String}
    {j : Json}
    {entries : List (String × Json)}
    (hSpace : Whitespace ws)
    (hRest : Derives strtod (.members entries) rest)
    (hFirstReads : Reads strtod first (.member key j))
    (hRestReads : Reads strtod rest (.members entries)) :
    Reads strtod (0x7B :: ws ++ first ++ rest)
      (.value (.object (objectOf ((key, j) :: entries)))) := by
  intro p before after hBefore hInput hStops
  have hOpen : p.lexer.ia =
      before ++ 0x7B :: (ws ++ first ++ (rest ++ after)) := by
    rw [hInput]
    simp
  rcases next_punctuation strtod .beginObject rfl hBefore hOpen
    with ⟨hToken, hIa⟩
  rcases hFirstReads _ ws (rest ++ after) hSpace hIa
    (stops_of_follows hRest trivial) with
    ⟨hString, value, used, q, hKey, hUsed, hStarted, hIa',
      hParse⟩
  rcases hRestReads q after [] key j hStarted hIa' with
    ⟨used', q', hUsed', hStarted', hIa'', hEvaluate⟩
  refine ⟨by rw [hToken]; decide, used' + used + 1, q', ?_,
    hStarted', hIa'', ?_⟩
  · simp only [List.length_append, List.length_cons]
    omega
  · intro turns stack
    rw [← Nat.add_assoc, parseValue, hToken]
    dsimp only
    rw [(p.next_started strtod).getToken_eq,
      if_neg (by rw [hString]; decide), hKey]
    dsimp only
    rw [← Nat.add_assoc, hParse, hEvaluate]
    rfl

/- A key, a colon and a value. -/
theorem reads_member
    {text ws ws' value : List UInt8}
    {key : String}
    {j : Json}
    (hKey : StringText text key)
    (hBefore : Whitespace ws)
    (hAfter : Whitespace ws')
    (hValueReads : Reads strtod value (.value j)) :
    Reads strtod (text ++ ws ++ 0x3A :: ws' ++ value)
      (.member key j) := by
  intro p space rest hSpace hInput hStops
  have hOpen : p.lexer.ia = space ++ text ++
      (ws ++ 0x3A :: (ws' ++ value ++ rest)) := by
    rw [hInput]
    simp
  rcases next_string hKey hSpace hOpen with
    ⟨hToken, hIa, hString⟩
  rcases next_punctuation strtod .nameSeparator rfl hBefore hIa
    with ⟨hToken', hIa'⟩
  rcases hValueReads _ ws' rest hAfter hIa' hStops with
    ⟨_, used, q, hUsed, hStarted, hIa'', hParse⟩
  refine ⟨hToken, _, used, q, ?_, ?_, hStarted, hIa'', hParse⟩
  · unfold readKey
    dsimp only
    rw [if_neg (not_not_intro hToken),
      (p.next_started strtod).getToken_eq,
      if_neg (not_not_intro hToken'), hString,
      (next_started strtod _).getToken_eq]
  · simp only [List.length_append, List.length_cons]
    omega

/- No comma: the array ends. -/
theorem reads_lastElement
    (hSpace : Whitespace text) :
    Reads strtod (text ++ [0x5D]) (.elements []) := by
  intro p rest elements j hStarted hInput
  have hClose : p.lexer.ia = text ++ 0x5D :: rest := by
    rw [hInput, List.append_assoc]
    rfl
  rcases next_punctuation strtod .endArray rfl hSpace hClose
    with ⟨hToken, hIa⟩
  refine ⟨1, p.next strtod, ?_, p.next_started strtod, hIa,
    ?_⟩
  · simp only [List.length_append, List.length_cons]
    omega
  · intro turns stack
    rw [evaluate, hStarted.getToken_eq,
      if_neg (by rw [hToken]; decide), if_pos hToken]

/- A comma: another element follows. -/
theorem reads_nextElement
    {ws ws' value rest : List UInt8}
    {j : Json}
    {values : List Json}
    (hBefore : Whitespace ws)
    (hAfter : Whitespace ws')
    (hRest : Derives strtod (.elements values) rest)
    (hValueReads : Reads strtod value (.value j))
    (hRestReads : Reads strtod rest (.elements values)) :
    Reads strtod (ws ++ 0x2C :: ws' ++ value ++ rest)
      (.elements (j :: values)) := by
  intro p after elements j' hStarted hInput
  have hComma : p.lexer.ia =
      ws ++ 0x2C :: (ws' ++ value ++ (rest ++ after)) := by
    rw [hInput]
    simp
  rcases next_punctuation strtod .valueSeparator rfl hBefore
    hComma with ⟨hToken, hIa⟩
  rcases hValueReads _ ws' (rest ++ after) hAfter hIa
    (stops_of_follows hRest trivial) with
    ⟨_, used, q, hUsed, hStarted', hIa', hParse⟩
  rcases hRestReads q after (elements ++ [j']) j hStarted' hIa'
    with ⟨used', q', hUsed', hStarted'', hIa'', hEvaluate⟩
  refine ⟨used' + used + 1, q', ?_, hStarted'', hIa'', ?_⟩
  · simp only [List.length_append, List.length_cons]
    omega
  · intro turns stack
    rw [← Nat.add_assoc, evaluate, hStarted.getToken_eq,
      if_pos hToken, (p.next_started strtod).getToken_eq,
      ← Nat.add_assoc, hParse, hEvaluate, List.append_assoc,
      List.singleton_append]

/- The same of an object. -/
theorem reads_lastMember
    (hSpace : Whitespace text) :
    Reads strtod (text ++ [0x7D]) (.members []) := by
  intro p rest kept key j hStarted hInput
  have hClose : p.lexer.ia = text ++ 0x7D :: rest := by
    rw [hInput, List.append_assoc]
    rfl
  rcases next_punctuation strtod .endObject rfl hSpace hClose
    with ⟨hToken, hIa⟩
  refine ⟨1, p.next strtod, ?_, p.next_started strtod, hIa,
    ?_⟩
  · simp only [List.length_append, List.length_cons]
    omega
  · intro turns stack
    rw [evaluate, hStarted.getToken_eq,
      if_neg (by rw [hToken]; decide), if_pos hToken]
    rfl

/- Another member goes to the end. -/
theorem reads_nextMember
    {ws ws' text rest : List UInt8}
    {key : String}
    {j : Json}
    {entries : List (String × Json)}
    (hBefore : Whitespace ws)
    (hAfter : Whitespace ws')
    (hRest : Derives strtod (.members entries) rest)
    (hMemberReads : Reads strtod text (.member key j))
    (hRestReads : Reads strtod rest (.members entries)) :
    Reads strtod (ws ++ 0x2C :: ws' ++ text ++ rest)
      (.members ((key, j) :: entries)) := by
  intro p after kept key' j' hStarted hInput
  have hComma : p.lexer.ia =
      ws ++ 0x2C :: (ws' ++ text ++ (rest ++ after)) := by
    rw [hInput]
    simp
  rcases next_punctuation strtod .valueSeparator rfl hBefore
    hComma with ⟨hToken, hIa⟩
  rcases hMemberReads _ ws' (rest ++ after) hAfter hIa
    (stops_of_follows hRest trivial) with
    ⟨_, value, used, q, hKey, hUsed, hStarted', hIa', hParse⟩
  rcases hRestReads q after (setMember key' j' kept) key j
    hStarted' hIa' with
    ⟨used', q', hUsed', hStarted'', hIa'', hEvaluate⟩
  refine ⟨used' + used + 1, q', ?_, hStarted'', hIa'', ?_⟩
  · simp only [List.length_append, List.length_cons]
    omega
  · intro turns stack
    rw [← Nat.add_assoc, evaluate, hStarted.getToken_eq,
      if_pos hToken, (p.next_started strtod).getToken_eq, hKey]
    dsimp only
    rw [← Nat.add_assoc, hParse, hEvaluate]
    rfl

end Parser

/- The parser reads what the grammar derives. -/
theorem Derives.reads
    {phrase : Phrase}
    (hText : Derives strtod phrase text) :
    Parser.Reads strtod text phrase := by
  induction hText with
  | scalar hText => exact Parser.reads_scalar hText
  | emptyArray hSpace => exact Parser.reads_emptyArray hSpace
  | array hSpace _ hRest ihFirst ihRest =>
      exact Parser.reads_array hSpace hRest ihFirst ihRest
  | emptyObject hSpace => exact Parser.reads_emptyObject hSpace
  | object hSpace _ hRest ihFirst ihRest =>
      exact Parser.reads_object hSpace hRest ihFirst ihRest
  | member hKey hBefore hAfter _ ihValue =>
      exact Parser.reads_member hKey hBefore hAfter ihValue
  | lastElement hSpace => exact Parser.reads_lastElement hSpace
  | nextElement hBefore hAfter _ hRest ihValue ihRest =>
      exact Parser.reads_nextElement hBefore hAfter hRest
        ihValue ihRest
  | lastMember hSpace => exact Parser.reads_lastMember hSpace
  | nextMember hBefore hAfter _ hRest ihMember ihRest =>
      exact Parser.reads_nextMember hBefore hAfter hRest
        ihMember ihRest

------------------------------------------------------------
-- Documents
------------------------------------------------------------

/- No value starts like the byte order mark. -/
theorem Derives.head_ne_mark
    {j : Json}
    (hText : Derives strtod (.value j) text) :
    (text ++ rest).head? ≠ some 0xEF := by
  cases hText with
  | scalar hText =>
      cases hText with
      | null => simp
      | true => simp
      | false => simp
      | string hText =>
          rcases hText with ⟨inner, rfl, _⟩
          simp
      | number hText =>
          cases text with
          | nil => exact absurd hText Lexer.numberText_ne_nil
          | cons b tail =>
              intro hHead
              cases hHead
              exact absurd (Lexer.numberText_head hText)
                (by decide)
  | emptyArray => simp
  | array => simp
  | emptyObject => simp
  | object => simp

/- A blank is no mark. -/
theorem head_append_ne_mark
    (hSpace : Whitespace ws)
    (hHead : rest.head? ≠ some 0xEF) :
    (ws ++ rest).head? ≠ some 0xEF := by
  cases ws with
  | nil => exact hHead
  | cons b ws =>
      intro hMark
      cases hMark
      rcases hSpace 0xEF List.mem_cons_self with
        hByte | hByte | hByte | hByte
      all_goals cases hByte

namespace Parser

/- The first token is that of what follows the mark. -/
theorem opening_of_skipBom
    {body : List UInt8}
    {lexer : Lexer}
    (hBom : Lexer.skipBom { ia := body } = (true, lexer)) :
    opening strtod body =
      next strtod ⟨lexer, .uninitialized⟩ := by
  unfold opening getToken Lexer.scan
  dsimp only
  rw [if_pos rfl, hBom]
  rfl

/- A mark that is broken off is an error. -/
theorem opening_of_broken
    {body : List UInt8}
    {lexer : Lexer}
    (hBom : Lexer.skipBom { ia := body } = (false, lexer)) :
    opening strtod body =
      ⟨lexer.fail
        "invalid BOM; must be 0xEF 0xBB 0xBF if given",
        .parseError⟩ := by
  unfold opening getToken Lexer.scan
  dsimp only
  rw [if_pos rfl, hBom]

/-
  The first token is that of what follows the mark, or of the
  whole body when it does not start like one.
-/
theorem opening_eq_next
    (strtod : Strtod)
    {mark input : List UInt8}
    (hMark : mark = [] ∧ input.head? ≠ some 0xEF ∨
      mark = byteOrderMark) :
    ∃ p : Parser, p.lexer.ia = input ∧
      opening strtod (mark ++ input) = p.next strtod := by
  let lexer : Lexer := { ia := mark ++ input }
  rcases hMark with ⟨rfl, hHead⟩ | rfl
  · have hBom : lexer.skipBom = (true, lexer.get.unget) := by
      rw [Lexer.skipBom, Lexer.get_current]
      exact if_neg hHead
    exact ⟨⟨lexer.get.unget, .uninitialized⟩,
      Lexer.unget_get_ia lexer, opening_of_skipBom hBom⟩
  · have hBom : lexer.skipBom =
        (true, lexer.get.get.get) := rfl
    exact ⟨⟨lexer.get.get.get, .uninitialized⟩, rfl,
      opening_of_skipBom hBom⟩

end Parser

/- A document is parsed as its value. -/
theorem parse_of_document
    {body : List UInt8}
    {j : Json}
    (hDocument : Document strtod body j) :
    parse strtod body = .ok j := by
  rcases hDocument with ⟨mark, ws, text, ws', rest, rfl,
    hMark, hSpace, hSpace', hText, hEnd⟩
  have hStopsEnd : Stops rest := by
    rcases hEnd with rfl | hNull
    · intro b hHead
      cases hHead
    · intro b hHead
      rw [hNull] at hHead
      cases hHead
      decide
  have hInput : mark ++ ws ++ text ++ ws' ++ rest =
      mark ++ (ws ++ (text ++ (ws' ++ rest))) := by
    simp only [List.append_assoc]
  have hMark' : mark = [] ∧
      (ws ++ (text ++ (ws' ++ rest))).head? ≠ some 0xEF ∨
        mark = byteOrderMark :=
    hMark.imp_left fun hNone =>
      ⟨hNone, head_append_ne_mark hSpace hText.head_ne_mark⟩
  rcases Parser.opening_eq_next strtod hMark' with
    ⟨p, hIa, hOpening⟩
  rw [← List.append_assoc] at hIa
  rcases hText.reads p ws (ws' ++ rest) hSpace hIa
    (Parser.stops_append hSpace' hStopsEnd) with
    ⟨_, used, q, hUsed, hStarted, hIa', hParse⟩
  rw [← hInput] at hOpening
  have hLength : text.length ≤
      (mark ++ ws ++ text ++ ws' ++ rest).length := by
    simp only [List.length_append]
    omega
  have hTurns : 2 * ((mark ++ ws ++ text ++ ws' ++
      rest).length + 1) =
        2 * ((mark ++ ws ++ text ++ ws' ++ rest).length + 1) -
          used - 1 + 1 + used := by
    omega
  have hLast : (q.getToken strtod).lastToken =
      .endOfInput := by
    rw [hStarted.getToken_eq]
    exact Lexer.scanToken_end hSpace' hIa' hEnd
  unfold parse
  rw [hOpening, hTurns, hParse, Parser.evaluate]
  exact if_neg (not_not_intro hLast)

end Json

end Poker

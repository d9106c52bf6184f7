import AsciiPoker.Common.Json
import AsciiPoker.Library.Utf8
import Mathlib.Algebra.Group.Nat.Defs

/-
  The lexer of the library that reads JSON (`json.hpp`,
  class `lexer`), on the bytes of a string.

  A byte that is put back is the first of the input again.
  Comments are off, and the decimal point is that of the
  locale "C", in which the program runs.  `strtod` is a
  parameter; it answers nothing for a number that no double
  holds.

  Main declarations:
    * `TokenType`, `Lexer`
    * `Lexer.scanString`, `Lexer.scanNumber`
    * `Lexer.scan`
-/

------------------------------------------------------------
-- Tokens
------------------------------------------------------------

namespace Poker

namespace Json

inductive TokenType
  | uninitialized
  | literalTrue
  | literalFalse
  | literalNull
  | valueString
  | valueUnsigned
  | valueInteger
  | valueFloat
  | beginArray
  | beginObject
  | endArray
  | endObject
  | nameSeparator
  | valueSeparator
  | parseError
  | endOfInput
  | literalOrValue
  deriving DecidableEq, Repr

/- `token_type_name`. -/
def TokenType.name : TokenType → String
| .uninitialized => "<uninitialized>"
| .literalTrue => "true literal"
| .literalFalse => "false literal"
| .literalNull => "null literal"
| .valueString => "string literal"
| .valueUnsigned => "number literal"
| .valueInteger => "number literal"
| .valueFloat => "number literal"
| .beginArray => "'['"
| .beginObject => "'\x7b'"
| .endArray => "']'"
| .endObject => "'\x7d'"
| .nameSeparator => "':'"
| .valueSeparator => "','"
| .parseError => "<parse error>"
| .endOfInput => "end of input"
| .literalOrValue => "'[', '\x7b', or a literal"

/- `position_t`. -/
structure Position where
  charsReadTotal : Nat := 0
  charsReadCurrentLine : Nat := 0
  linesRead : Nat := 0

/- What `strtod` makes of the text of a number. -/
abbrev Strtod := List UInt8 → Option Rat

/-
  The fields of a lexer; `current` is `none` at the end of
  the input.
-/
structure Lexer where
  ia : List UInt8
  current : Option UInt8 := none
  position : Position := {}
  tokenString : List UInt8 := []
  tokenBuffer : List UInt8 := []
  errorMessage : String := ""
  valueInteger : Int := 0
  valueUnsigned : UInt64 := 0
  valueFloat : Option Rat := some 0

namespace Lexer

------------------------------------------------------------
-- Input
------------------------------------------------------------

/- `get`. -/
def get
    (lexer : Lexer) : Lexer :=
  let total := lexer.position.charsReadTotal + 1
  let column := lexer.position.charsReadCurrentLine + 1
  let lines := lexer.position.linesRead
  match lexer.ia with
  | [] =>
      { lexer with
        current := none
        position := ⟨total, column, lines⟩ }
  | b :: ia =>
      { lexer with
        ia := ia
        current := some b
        tokenString := lexer.tokenString ++ [b]
        position :=
          if b = 0x0A then
            ⟨total, 0, lines + 1⟩
          else
            ⟨total, column, lines⟩ }

/- `unget`. -/
def unget
    (lexer : Lexer) : Lexer :=
  let total := lexer.position.charsReadTotal - 1
  let column := lexer.position.charsReadCurrentLine
  let lines := lexer.position.linesRead
  { lexer with
    ia := lexer.current.toList ++ lexer.ia
    tokenString :=
      match lexer.current with
      | none => lexer.tokenString
      | some _ => lexer.tokenString.dropLast
    position :=
      if column = 0 then
        ⟨total, column, lines - 1⟩
      else
        ⟨total, column - 1, lines⟩ }

/- `reset`: the current byte is the first of a token. -/
def reset
    (lexer : Lexer) : Lexer :=
  { lexer with
    tokenBuffer := []
    tokenString := lexer.current.toList }

/- `add`. -/
def add
    (lexer : Lexer)
    (b : UInt8) : Lexer :=
  { lexer with tokenBuffer := lexer.tokenBuffer ++ [b] }

/- `add(current)`. -/
def addCurrent
    (lexer : Lexer) : Lexer :=
  { lexer with
    tokenBuffer := lexer.tokenBuffer ++ lexer.current.toList }

/- Set `error_message`. -/
def fail
    (lexer : Lexer)
    (message : String) : Lexer :=
  { lexer with errorMessage := message }

------------------------------------------------------------
-- Strings
------------------------------------------------------------

/- The value of a hexadecimal digit. -/
def hexValue
    (b : UInt8) : Option Nat :=
  if 0x30 ≤ b ∧ b ≤ 0x39 then
    some (b.toNat - 0x30)
  else if 0x41 ≤ b ∧ b ≤ 0x46 then
    some (b.toNat - 0x37)
  else if 0x61 ≤ b ∧ b ≤ 0x66 then
    some (b.toNat - 0x57)
  else
    none

/- The loop of `get_codepoint` over its factors. -/
def getCodepointLoop : List Nat → Nat → Lexer →
    Option Nat × Lexer
| [], codepoint, lexer => (some codepoint, lexer)
| factor :: factors, codepoint, lexer =>
    let lexer := lexer.get
    match lexer.current.bind hexValue with
    | some digit =>
        getCodepointLoop factors
          (codepoint + digit <<< factor) lexer
    | none => (none, lexer)

/- `get_codepoint`; its -1 is `none`. -/
def getCodepoint
    (lexer : Lexer) : Option Nat × Lexer :=
  getCodepointLoop [12, 8, 4, 0] 0 lexer

/- The loop of `next_byte_in_range` over its ranges. -/
def nextByteInRangeLoop : List (UInt8 × UInt8) → Lexer →
    Bool × Lexer
| [], lexer => (true, lexer)
| range :: ranges, lexer =>
    let lexer := lexer.get
    if ∃ b ∈ lexer.current, Utf8.InRange b range then
      nextByteInRangeLoop ranges lexer.addCurrent
    else
      (false,
        lexer.fail "invalid string: ill-formed UTF-8 byte")

/- `next_byte_in_range`. -/
def nextByteInRange
    (ranges : List (UInt8 × UInt8))
    (lexer : Lexer) : Bool × Lexer :=
  nextByteInRangeLoop ranges lexer.addCurrent

/- The bytes that a code point is translated into. -/
def codepointBytes
    (codepoint : Nat) : List UInt8 :=
  if codepoint < 0x80 then
    [UInt8.ofNat codepoint]
  else if codepoint ≤ 0x7FF then
    [UInt8.ofNat (0xC0 ||| codepoint >>> 6),
      UInt8.ofNat (0x80 ||| codepoint &&& 0x3F)]
  else if codepoint ≤ 0xFFFF then
    [UInt8.ofNat (0xE0 ||| codepoint >>> 12),
      UInt8.ofNat (0x80 ||| codepoint >>> 6 &&& 0x3F),
      UInt8.ofNat (0x80 ||| codepoint &&& 0x3F)]
  else
    [UInt8.ofNat (0xF0 ||| codepoint >>> 18),
      UInt8.ofNat (0x80 ||| codepoint >>> 12 &&& 0x3F),
      UInt8.ofNat (0x80 ||| codepoint >>> 6 &&& 0x3F),
      UInt8.ofNat (0x80 ||| codepoint &&& 0x3F)]

/- Add the bytes of a code point. -/
def addCodepoint
    (lexer : Lexer)
    (codepoint : Nat) : Lexer :=
  { lexer with
    tokenBuffer :=
      lexer.tokenBuffer ++ codepointBytes codepoint }

def notHexadecimal : String :=
  "invalid string: '\\u' must be followed by 4 hex digits"

def highSurrogate : String :=
  "invalid string: surrogate U+D800..U+DBFF must be " ++
    "followed by U+DC00..U+DFFF"

def lowSurrogate : String :=
  "invalid string: surrogate U+DC00..U+DFFF must follow " ++
    "U+D800..U+DBFF"

/-
  The rest of an escape whose first code point is a high
  surrogate.  `none` lets the loop of `scan_string` go on.
-/
def scanLowSurrogate
    (codepoint1 : Nat)
    (lexer : Lexer) : Option TokenType × Lexer :=
  let lexer := lexer.get
  if lexer.current ≠ some 0x5C then
    (some .parseError, lexer.fail highSurrogate)
  else
    let lexer := lexer.get
    if lexer.current ≠ some 0x75 then
      (some .parseError, lexer.fail highSurrogate)
    else
      match lexer.getCodepoint with
      | (none, lexer) =>
          (some .parseError, lexer.fail notHexadecimal)
      | (some codepoint2, lexer) =>
          if 0xDC00 ≤ codepoint2 ∧ codepoint2 ≤ 0xDFFF then
            (none, lexer.addCodepoint
              (codepoint1 <<< 10 + codepoint2 - 0x35FDC00))
          else
            (some .parseError, lexer.fail highSurrogate)

/- The `case 'u'` of `scan_string`. -/
def scanUnicode
    (lexer : Lexer) : Option TokenType × Lexer :=
  match lexer.getCodepoint with
  | (none, lexer) =>
      (some .parseError, lexer.fail notHexadecimal)
  | (some codepoint1, lexer) =>
      if 0xD800 ≤ codepoint1 ∧ codepoint1 ≤ 0xDBFF then
        lexer.scanLowSurrogate codepoint1
      else if 0xDC00 ≤ codepoint1 ∧ codepoint1 ≤ 0xDFFF then
        (some .parseError, lexer.fail lowSurrogate)
      else
        (none, lexer.addCodepoint codepoint1)

/- What a byte after a backslash stands for. -/
def unescape : UInt8 → Option UInt8
| 0x22 => some 0x22
| 0x5C => some 0x5C
| 0x2F => some 0x2F
| 0x62 => some 0x08
| 0x66 => some 0x0C
| 0x6E => some 0x0A
| 0x72 => some 0x0D
| 0x74 => some 0x09
| _ => none

/- The `case '\\'` of `scan_string`. -/
def scanEscape
    (lexer : Lexer) : Option TokenType × Lexer :=
  let lexer := lexer.get
  if lexer.current = some 0x75 then
    lexer.scanUnicode
  else
    match lexer.current.bind unescape with
    | some b => (none, lexer.add b)
    | none =>
        (some .parseError, lexer.fail
          "invalid string: forbidden character after backslash")

/- The names of the control characters. -/
def controlNames : List String :=
  ["NUL", "SOH", "STX", "ETX", "EOT", "ENQ", "ACK", "BEL",
    "BS", "HT", "LF", "VT", "FF", "CR", "SO", "SI", "DLE",
    "DC1", "DC2", "DC3", "DC4", "NAK", "SYN", "ETB", "CAN",
    "EM", "SUB", "ESC", "FS", "GS", "RS", "US"]

/- The other escapes that the messages name. -/
def controlEscape : UInt8 → String
| 0x08 => " or \\b"
| 0x09 => " or \\t"
| 0x0A => " or \\n"
| 0x0C => " or \\f"
| 0x0D => " or \\r"
| _ => ""

/- Two digits, as `%.4X` ends in them. -/
def hexByte
    (b : UInt8) : String :=
  String.ofList
    [(Nat.digitChar (b.toNat / 16)).toUpper,
      (Nat.digitChar (b.toNat % 16)).toUpper]

/- The message for a control character in a string. -/
def controlMessage
    (b : UInt8) : String :=
  "invalid string: control character U+00" ++ hexByte b ++
    " (" ++ controlNames.getD b.toNat "" ++
    ") must be escaped to \\u00" ++ hexByte b ++
    controlEscape b

/-
  One turn of the loop of `scan_string`; `none` lets it go
  on.  Which bytes may follow which from 0x80 on is the
  table that the cases make up.
-/
def scanStringTurn
    (lexer : Lexer) : Option TokenType × Lexer :=
  let lexer := lexer.get
  match lexer.current with
  | none =>
      (some .parseError, lexer.fail
        "invalid string: missing closing quote")
  | some b =>
      if b = 0x22 then
        (some .valueString, lexer)
      else if b = 0x5C then
        lexer.scanEscape
      else if b ≤ 0x1F then
        (some .parseError, lexer.fail (controlMessage b))
      else if b ≤ 0x7F then
        (none, lexer.addCurrent)
      else
        match Utf8.following b with
        | some ranges =>
            match lexer.nextByteInRange ranges with
            | (true, lexer) => (none, lexer)
            | (false, lexer) => (some .parseError, lexer)
        | none =>
            (some .parseError, lexer.fail
              "invalid string: ill-formed UTF-8 byte")

/- The loop of `scan_string`. -/
def scanStringLoop : Nat → Lexer → TokenType × Lexer
| 0, lexer => (.parseError, lexer)
| fuel + 1, lexer =>
    match lexer.scanStringTurn with
    | (some type, lexer) => (type, lexer)
    | (none, lexer) => scanStringLoop fuel lexer

/- `scan_string`. -/
def scanString
    (lexer : Lexer) : TokenType × Lexer :=
  scanStringLoop (lexer.ia.length + 1) lexer.reset

------------------------------------------------------------
-- Numbers
------------------------------------------------------------

/- The labels of `scan_number`. -/
inductive NumberState
  | minus
  | zero
  | any1
  | decimal1
  | decimal2
  | exponent
  | sign
  | any2
  deriving DecidableEq, Repr

/- A decimal digit. -/
def isDigit
    (b : UInt8) : Bool :=
  0x30 ≤ b && b ≤ 0x39

/- The letter of an exponent. -/
def isExponent
    (b : UInt8) : Bool :=
  b = 0x65 || b = 0x45

/- Where a byte leads to from a label, if it is added. -/
def NumberState.next : NumberState → UInt8 →
    Option NumberState
| .minus, b =>
    if b = 0x30 then
      some .zero
    else if isDigit b then
      some .any1
    else
      none
| .zero, b =>
    if b = 0x2E then
      some .decimal1
    else if isExponent b then
      some .exponent
    else
      none
| .any1, b =>
    if isDigit b then
      some .any1
    else if b = 0x2E then
      some .decimal1
    else if isExponent b then
      some .exponent
    else
      none
| .decimal1, b => if isDigit b then some .decimal2 else none
| .decimal2, b =>
    if isDigit b then
      some .decimal2
    else if isExponent b then
      some .exponent
    else
      none
| .exponent, b =>
    if b = 0x2B ∨ b = 0x2D then
      some .sign
    else if isDigit b then
      some .any2
    else
      none
| .sign, b => if isDigit b then some .any2 else none
| .any2, b => if isDigit b then some .any2 else none

/- What any other byte is at a label: an error or the end. -/
def NumberState.error : NumberState → Option String
| .minus => some "invalid number; expected digit after '-'"
| .zero => none
| .any1 => none
| .decimal1 =>
    some "invalid number; expected digit after '.'"
| .decimal2 => none
| .exponent =>
    some ("invalid number; expected '+', '-', or digit " ++
      "after exponent")
| .sign =>
    some "invalid number; expected digit after exponent sign"
| .any2 => none

/- `number_type` from a label on. -/
def NumberState.numberType : NumberState → TokenType →
    TokenType
| .minus, _ => .valueInteger
| .decimal1, _ => .valueFloat
| .exponent, _ => .valueFloat
| _, numberType => numberType

/- The number that digits stand for. -/
def digitsValue
    (digits : List UInt8) : Nat :=
  digits.foldl (fun n b => 10 * n + (b.toNat - 0x30)) 0

/- `strtoull` on digits; `none` is `ERANGE`. -/
def strtoull
    (text : List UInt8) : Option UInt64 :=
  if digitsValue text < 2 ^ 64 then
    some (UInt64.ofNat (digitsValue text))
  else
    none

/- `strtoll` on digits after a minus; `none` is `ERANGE`. -/
def strtoll
    (text : List UInt8) : Option Int :=
  if digitsValue text.tail ≤ 2 ^ 63 then
    some (-digitsValue text.tail)
  else
    none

/- What follows `scan_number_done` and `unget`. -/
def convertNumber
    (strtod : Strtod)
    (numberType : TokenType)
    (lexer : Lexer) : TokenType × Lexer :=
  let float :=
    (TokenType.valueFloat,
      { lexer with valueFloat := strtod lexer.tokenBuffer })
  match numberType with
  | .valueUnsigned =>
      match strtoull lexer.tokenBuffer with
      | some x =>
          (.valueUnsigned, { lexer with valueUnsigned := x })
      | none => float
  | .valueInteger =>
      match strtoll lexer.tokenBuffer with
      | some x =>
          (.valueInteger, { lexer with valueInteger := x })
      | none => float
  | _ => float

/- `scan_number` from a label on. -/
def scanNumberLoop
    (strtod : Strtod) : Nat → NumberState → TokenType →
      Lexer → TokenType × Lexer
| 0, _, _, lexer => (.parseError, lexer)
| fuel + 1, state, numberType, lexer =>
    let numberType := state.numberType numberType
    let lexer := lexer.get
    match lexer.current.bind state.next with
    | some next =>
        scanNumberLoop strtod fuel next numberType
          lexer.addCurrent
    | none =>
        match state.error with
        | some message => (.parseError, lexer.fail message)
        | none => lexer.unget.convertNumber strtod numberType

/- `scan_number`, which starts on a minus or a digit. -/
def scanNumber
    (strtod : Strtod)
    (lexer : Lexer) : TokenType × Lexer :=
  let state :=
    if lexer.current = some 0x2D then
      NumberState.minus
    else if lexer.current = some 0x30 then
      .zero
    else
      .any1
  scanNumberLoop strtod (lexer.ia.length + 1) state
    .valueUnsigned lexer.reset.addCurrent

------------------------------------------------------------
-- Scanning
------------------------------------------------------------

/- The rest of `scan_literal`. -/
def scanLiteral : List UInt8 → TokenType → Lexer →
    TokenType × Lexer
| [], type, lexer => (type, lexer)
| b :: text, type, lexer =>
    let lexer := lexer.get
    if lexer.current = some b then
      scanLiteral text type lexer
    else
      (.parseError, lexer.fail "invalid literal")

/- `skip_bom`. -/
def skipBom
    (lexer : Lexer) : Bool × Lexer :=
  let lexer := lexer.get
  if lexer.current = some 0xEF then
    let lexer := lexer.get
    if lexer.current = some 0xBB then
      let lexer := lexer.get
      (lexer.current = some 0xBF, lexer)
    else
      (false, lexer)
  else
    (true, lexer.unget)

/- A space, a tab, a line feed or a carriage return. -/
def isWhitespace
    (b : UInt8) : Bool :=
  b = 0x20 || b = 0x09 || b = 0x0A || b = 0x0D

/- The loop of `skip_whitespace`. -/
def skipWhitespaceLoop : Nat → Lexer → Lexer
| 0, lexer => lexer.get
| fuel + 1, lexer =>
    let lexer := lexer.get
    if lexer.current.any isWhitespace then
      skipWhitespaceLoop fuel lexer
    else
      lexer

/- `skip_whitespace`. -/
def skipWhitespace
    (lexer : Lexer) : Lexer :=
  skipWhitespaceLoop lexer.ia.length lexer

/- The `switch` of `scan`. -/
def scanCurrent
    (strtod : Strtod)
    (lexer : Lexer) : TokenType × Lexer :=
  match lexer.current with
  | none => (.endOfInput, lexer)
  | some b =>
      match b with
      | 0x5B => (.beginArray, lexer)
      | 0x5D => (.endArray, lexer)
      | 0x7B => (.beginObject, lexer)
      | 0x7D => (.endObject, lexer)
      | 0x3A => (.nameSeparator, lexer)
      | 0x2C => (.valueSeparator, lexer)
      -- The letters after `t`, `f` and `n`.
      | 0x74 =>
          lexer.scanLiteral [0x72, 0x75, 0x65] .literalTrue
      | 0x66 =>
          lexer.scanLiteral [0x61, 0x6C, 0x73, 0x65]
            .literalFalse
      | 0x6E =>
          lexer.scanLiteral [0x75, 0x6C, 0x6C] .literalNull
      | 0x22 => lexer.scanString
      | 0x00 => (.endOfInput, lexer)
      | b =>
          if b = 0x2D ∨ isDigit b then
            lexer.scanNumber strtod
          else
            (.parseError, lexer.fail "invalid literal")

/- `scan` after the byte order mark. -/
def scanToken
    (strtod : Strtod)
    (lexer : Lexer) : TokenType × Lexer :=
  lexer.skipWhitespace.scanCurrent strtod

/- `scan`. -/
def scan
    (strtod : Strtod)
    (lexer : Lexer) : TokenType × Lexer :=
  if lexer.position.charsReadTotal = 0 then
    match lexer.skipBom with
    | (true, lexer) => lexer.scanToken strtod
    | (false, lexer) =>
        (.parseError, lexer.fail
          "invalid BOM; must be 0xEF 0xBB 0xBF if given")
  else
    lexer.scanToken strtod

------------------------------------------------------------
-- Diagnostics
------------------------------------------------------------

/- A byte of `get_token_string`. -/
def printable
    (b : UInt8) : List UInt8 :=
  if b ≤ 0x1F then
    Utf8.encode ("<U+00" ++ hexByte b ++ ">").toList
  else
    [b]

/- `get_token_string`. -/
def getTokenString
    (lexer : Lexer) : List UInt8 :=
  lexer.tokenString.flatMap printable

end Lexer

end Json

end Poker

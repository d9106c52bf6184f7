import AsciiPoker.Common.Json.Lexer

/-
  The parser of the library that reads JSON (`json.hpp`,
  class `parser`), with the values that its handler
  `json_sax_dom_parser` builds.

  The parser's stack of what it is inside of and the
  handler's stack of unfinished values are one list here.
  A loop has a number of turns; it never runs out of them.

  Main declarations:
    * `Exception`, `Parser`
    * `Parser.parseValue`, `Parser.evaluate`
    * `parse`
-/

namespace Poker

namespace Json

------------------------------------------------------------
-- Exceptions
------------------------------------------------------------

/-
  `parse_error.101` with the `byte` it is thrown at,
  `out_of_range.406`, or a loop that is out of turns.
-/
inductive Exception
  | parseError (byte : Nat) (what : List UInt8)
  | outOfRange (what : List UInt8)
  | exhausted

/- The bytes of a text of the program. -/
def bytes
    (text : String) : List UInt8 :=
  Utf8.encode text.toList

/- The string that the lexer has read. -/
def Lexer.getString
    (lexer : Lexer) : String :=
  (String.fromUTF8? ⟨lexer.tokenBuffer.toArray⟩).getD ""

/- A lexer and the token that it has read last. -/
structure Parser where
  lexer : Lexer
  lastToken : TokenType := .uninitialized

namespace Parser

/- `get_token`. -/
def getToken
    (strtod : Strtod)
    (p : Parser) : Parser :=
  let (token, lexer) := p.lexer.scan strtod
  ⟨lexer, token⟩

/- `exception_message`. -/
def exceptionMessage
    (p : Parser)
    (expected : TokenType)
    (context : String) : List UInt8 :=
  bytes ("syntax error while parsing " ++ context ++ " - ") ++
    (if p.lastToken = .parseError then
      bytes p.lexer.errorMessage ++ bytes "; last read: '" ++
        p.lexer.getTokenString ++ bytes "'"
    else
      bytes ("unexpected " ++ p.lastToken.name)) ++
    (if expected = .uninitialized then
      []
    else
      bytes ("; expected " ++ expected.name))

/- `parse_error::create(101, m_lexer.get_position(), ..)`. -/
def errorAt
    (p : Parser)
    (message : List UInt8) : Exception :=
  let position := p.lexer.position
  .parseError position.charsReadTotal
    (bytes ("[json.exception.parse_error.101] parse error " ++
      "at line " ++ toString (position.linesRead + 1) ++
      ", column " ++
      toString position.charsReadCurrentLine ++ ": ") ++
      message)

/- The error of a token that is not as expected. -/
def syntaxError
    (p : Parser)
    (expected : TokenType)
    (context : String) : Exception :=
  p.errorAt (p.exceptionMessage expected context)

/- The error of a number that no double holds. -/
def overflow
    (p : Parser) : Exception :=
  .outOfRange
    (bytes ("[json.exception.out_of_range.406] " ++
      "number overflow parsing '") ++
      p.lexer.getTokenString ++ bytes "'")

/- The error of an input that ends before a value. -/
def emptyError
    (p : Parser) : Exception :=
  if p.lexer.position.charsReadTotal = 1 then
    p.errorAt (bytes ("attempting to parse an empty input; " ++
      "check that your input string or stream contains the " ++
      "expected JSON"))
  else
    p.syntaxError .literalOrValue "value"

------------------------------------------------------------
-- Values
------------------------------------------------------------

/- `operator[]` of a map, and the assignment that follows. -/
def setMember
    (key : String)
    (value : Json) : List (String × Json) →
      List (String × Json)
| [] => [(key, value)]
| (other, old) :: members =>
    if key = other then
      (key, value) :: members
    else if key < other then
      (key, value) :: (other, old) :: members
    else
      (other, old) :: setMember key value members

/- An array or an object with a key, not at its end. -/
inductive Frame
  | array (elements : List Json)
  | object (members : List (String × Json)) (key : String)

/- From a key to the first token of its value. -/
def readKey
    (strtod : Strtod)
    (p : Parser) : Except Exception (String × Parser) :=
  if p.lastToken ≠ .valueString then
    .error (p.syntaxError .valueString "object key")
  else
    let key := p.lexer.getString
    let p := p.getToken strtod
    if p.lastToken ≠ .nameSeparator then
      .error (p.syntaxError .nameSeparator "object separator")
    else
      .ok (key, p.getToken strtod)

------------------------------------------------------------
-- The Loop
------------------------------------------------------------

mutual

/- A turn of `sax_parse_internal` that starts on a value. -/
def parseValue
    (strtod : Strtod) : Nat → Parser → List Frame →
      Except Exception (Json × Parser)
| 0, _, _ => .error .exhausted
| turns + 1, p, stack =>
    match p.lastToken with
    | .beginObject =>
        let p := p.getToken strtod
        if p.lastToken = .endObject then
          evaluate strtod turns p stack (.object [])
        else
          match p.readKey strtod with
          | .error exception => .error exception
          | .ok (key, p) =>
              parseValue strtod turns p
                (.object [] key :: stack)
    | .beginArray =>
        let p := p.getToken strtod
        if p.lastToken = .endArray then
          evaluate strtod turns p stack (.array [])
        else
          parseValue strtod turns p (.array [] :: stack)
    | .valueFloat =>
        match p.lexer.valueFloat with
        | none => .error p.overflow
        | some value =>
            evaluate strtod turns p stack (.float value)
    | .literalFalse =>
        evaluate strtod turns p stack (.boolean false)
    | .literalNull => evaluate strtod turns p stack .null
    | .literalTrue =>
        evaluate strtod turns p stack (.boolean true)
    | .valueInteger =>
        evaluate strtod turns p stack
          (.integer p.lexer.valueInteger)
    | .valueString =>
        evaluate strtod turns p stack
          (.string p.lexer.getString)
    | .valueUnsigned =>
        evaluate strtod turns p stack
          (.unsigned p.lexer.valueUnsigned)
    | .parseError =>
        .error (p.syntaxError .uninitialized "value")
    | .endOfInput => .error p.emptyError
    | _ => .error (p.syntaxError .literalOrValue "value")

/- The rest of a turn, once there is a value. -/
def evaluate
    (strtod : Strtod) : Nat → Parser → List Frame → Json →
      Except Exception (Json × Parser)
| 0, _, _, _ => .error .exhausted
| _ + 1, p, [], value => .ok (value, p)
| turns + 1, p, .array elements :: stack, value =>
    let elements := elements ++ [value]
    let p := p.getToken strtod
    if p.lastToken = .valueSeparator then
      parseValue strtod turns (p.getToken strtod)
        (.array elements :: stack)
    else if p.lastToken = .endArray then
      evaluate strtod turns p stack (.array elements)
    else
      .error (p.syntaxError .endArray "array")
| turns + 1, p, .object members key :: stack, value =>
    let members := setMember key value members
    let p := p.getToken strtod
    if p.lastToken = .valueSeparator then
      match (p.getToken strtod).readKey strtod with
      | .error exception => .error exception
      | .ok (key, p) =>
          parseValue strtod turns p
            (.object members key :: stack)
    else if p.lastToken = .endObject then
      evaluate strtod turns p stack (.object members)
    else
      .error (p.syntaxError .endObject "object")

end

/- The constructor, which reads the first token. -/
def opening
    (strtod : Strtod)
    (body : List UInt8) : Parser :=
  getToken strtod ⟨{ ia := body }, .uninitialized⟩

end Parser

/- `nlohmann::json::parse` on a string. -/
def parse
    (strtod : Strtod)
    (body : List UInt8) : Except Exception Json :=
  match (Parser.opening strtod body).parseValue strtod
      (2 * (body.length + 1)) [] with
  | .error exception => .error exception
  | .ok (value, p) =>
      let p := p.getToken strtod
      if p.lastToken ≠ .endOfInput then
        .error (p.syntaxError .endOfInput "value")
      else
        .ok value

end Json

end Poker

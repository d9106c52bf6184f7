import AsciiPoker.Common.Json.Parser
import Mathlib.Data.Nat.Digits.Defs

/-
  The texts of JSON (RFC 8259), and the value of each.

  A number without a fraction and an exponent has its own
  value when 64 bits hold it; any other one is what `strtod`
  makes of it.  A text may start with the byte order mark,
  and nothing from a null byte on belongs to it.

  Main declarations:
    * `Chars`, `StringText`, `NumberText`
    * `Phrase`, `Derives`
    * `Document`
-/

namespace Poker

namespace Json

------------------------------------------------------------
-- Strings
------------------------------------------------------------

/- The byte is a hexadecimal digit, small or capital. -/
def HexDigit
    (b : UInt8)
    (n : Nat) : Prop :=
  n < 16 ∧ (b = UInt8.ofNat (Nat.digitChar n).toNat ∨
    b = UInt8.ofNat (Nat.digitChar n).toUpper.toNat)

/- Four hexadecimal digits and their number. -/
def HexNumber
    (digits : List UInt8)
    (n : Nat) : Prop :=
  ∃ b₁ b₂ b₃ b₄ n₁ n₂ n₃ n₄,
    digits = [b₁, b₂, b₃, b₄] ∧
      HexDigit b₁ n₁ ∧ HexDigit b₂ n₂ ∧
      HexDigit b₃ n₃ ∧ HexDigit b₄ n₄ ∧
      n = n₁ * 4096 + n₂ * 256 + n₃ * 16 + n₄

/- The letters of the short escapes. -/
def shortEscapes : List (UInt8 × Char) :=
  [(0x22, '"'), (0x5C, '\\'), (0x2F, '/'), (0x62, '\x08'),
    (0x66, '\x0C'), (0x6E, '\n'), (0x72, '\r'), (0x74, '\t')]

/- A character of a string and the bytes it is written as. -/
inductive CharText : List UInt8 → Char → Prop
  | plain
      {c : Char}
      (hPrintable : 0x20 ≤ c.toNat)
      (hQuote : c ≠ '"')
      (hBackslash : c ≠ '\\') :
      CharText (String.utf8EncodeChar c) c
  | short
      {letter : UInt8}
      {c : Char}
      (hEscape : (letter, c) ∈ shortEscapes) :
      CharText [0x5C, letter] c
  | unicode
      {digits : List UInt8}
      {c : Char}
      (hDigits : HexNumber digits c.toNat) :
      CharText (0x5C :: 0x75 :: digits) c
  | surrogates
      {digits digits' : List UInt8}
      {high low : Nat}
      {c : Char}
      (hHigh : HexNumber digits (0xD800 + high))
      (hLow : HexNumber digits' (0xDC00 + low))
      (hSmall : high < 0x400 ∧ low < 0x400)
      (hChar : c.toNat = 0x10000 + high * 0x400 + low) :
      CharText
        (0x5C :: 0x75 :: digits ++ 0x5C :: 0x75 :: digits') c

/- The characters between the quotation marks. -/
inductive Chars : List UInt8 → List Char → Prop
  | nil : Chars [] []
  | cons
      {text rest : List UInt8}
      {c : Char}
      {cs : List Char}
      (hChar : CharText text c)
      (hRest : Chars rest cs) :
      Chars (text ++ rest) (c :: cs)

def StringText
    (text : List UInt8)
    (s : String) : Prop :=
  ∃ inner, text = 0x22 :: inner ++ [0x22] ∧
    Chars inner s.toList

------------------------------------------------------------
-- Numbers
------------------------------------------------------------

/- Nothing but decimal digits. -/
def Digits
    (text : List UInt8) : Prop :=
  ∀ b ∈ text, 0x30 ≤ b ∧ b ≤ 0x39

/- The digits before the point, without a needless zero. -/
def Integral
    (text : List UInt8) : Prop :=
  text = [0x30] ∨
    Digits text ∧ ∃ b ∈ text.head?, b ≠ 0x30

def Fraction
    (text : List UInt8) : Prop :=
  text = [] ∨ ∃ digits, text = 0x2E :: digits ∧
    digits ≠ [] ∧ Digits digits

def ExponentPart
    (text : List UInt8) : Prop :=
  text = [] ∨ ∃ letter sign digits,
    text = letter :: sign ++ digits ∧
      (letter = 0x65 ∨ letter = 0x45) ∧
      (sign = [] ∨ sign = [0x2B] ∨ sign = [0x2D]) ∧
      digits ≠ [] ∧ Digits digits

/- The number that decimal digits stand for. -/
def decimal
    (digits : List UInt8) : Nat :=
  Nat.ofDigits 10
    (digits.reverse.map fun b => b.toNat - 0x30)

/- The value of a number that has these parts. -/
def numberValue
    (strtod : Strtod)
    (sign integral fraction exponent : List UInt8) :
    Option Json :=
  let float := (strtod
    (sign ++ integral ++ fraction ++ exponent)).map .float
  if fraction ++ exponent = [] then
    if sign = [] then
      if decimal integral < 2 ^ 64 then
        some (.unsigned (UInt64.ofNat (decimal integral)))
      else
        float
    else if decimal integral ≤ 2 ^ 63 then
      some (.integer (-decimal integral))
    else
      float
  else
    float

/- A number and its value, unless no double holds it. -/
def NumberText
    (strtod : Strtod)
    (text : List UInt8)
    (value : Option Json) : Prop :=
  ∃ sign integral fraction exponent,
    text = sign ++ integral ++ fraction ++ exponent ∧
      (sign = [] ∨ sign = [0x2D]) ∧ Integral integral ∧
      Fraction fraction ∧ ExponentPart exponent ∧
      value = numberValue strtod sign integral fraction
        exponent

------------------------------------------------------------
-- Values
------------------------------------------------------------

def Whitespace
    (text : List UInt8) : Prop :=
  ∀ b ∈ text, b = 0x20 ∨ b = 0x09 ∨ b = 0x0A ∨ b = 0x0D

/- A value that is not made of others. -/
inductive Scalar
    (strtod : Strtod) : List UInt8 → Json → Prop
  | null : Scalar strtod [0x6E, 0x75, 0x6C, 0x6C] .null
  | true :
      Scalar strtod [0x74, 0x72, 0x75, 0x65] (.boolean true)
  | false :
      Scalar strtod [0x66, 0x61, 0x6C, 0x73, 0x65]
        (.boolean false)
  | string
      {text : List UInt8}
      {s : String}
      (hText : StringText text s) :
      Scalar strtod text (.string s)
  | number
      {text : List UInt8}
      {j : Json}
      (hText : NumberText strtod text (some j)) :
      Scalar strtod text j

/- The members of an object, the last of each key. -/
def objectOf
    (members : List (String × Json)) :
    List (String × Json) :=
  members.foldl
    (fun kept member =>
      Parser.setMember member.1 member.2 kept) []

/-
  A value, a member of an object, or what is left of an
  array or an object after an element or a member.
-/
inductive Phrase
  | value (j : Json)
  | member (key : String) (j : Json)
  | elements (values : List Json)
  | members (entries : List (String × Json))

inductive Derives
    (strtod : Strtod) : Phrase → List UInt8 → Prop
  | scalar
      {text : List UInt8}
      {j : Json}
      (hText : Scalar strtod text j) :
      Derives strtod (.value j) text
  | emptyArray
      {ws : List UInt8}
      (hSpace : Whitespace ws) :
      Derives strtod (.value (.array [])) (0x5B :: ws ++ [0x5D])
  | array
      {ws first rest : List UInt8}
      {j : Json}
      {values : List Json}
      (hSpace : Whitespace ws)
      (hFirst : Derives strtod (.value j) first)
      (hRest : Derives strtod (.elements values) rest) :
      Derives strtod (.value (.array (j :: values)))
        (0x5B :: ws ++ first ++ rest)
  | emptyObject
      {ws : List UInt8}
      (hSpace : Whitespace ws) :
      Derives strtod (.value (.object []))
        (0x7B :: ws ++ [0x7D])
  | object
      {ws first rest : List UInt8}
      {key : String}
      {j : Json}
      {entries : List (String × Json)}
      (hSpace : Whitespace ws)
      (hFirst : Derives strtod (.member key j) first)
      (hRest : Derives strtod (.members entries) rest) :
      Derives strtod
        (.value (.object (objectOf ((key, j) :: entries))))
        (0x7B :: ws ++ first ++ rest)
  | member
      {text ws ws' value : List UInt8}
      {key : String}
      {j : Json}
      (hKey : StringText text key)
      (hBefore : Whitespace ws)
      (hAfter : Whitespace ws')
      (hValue : Derives strtod (.value j) value) :
      Derives strtod (.member key j)
        (text ++ ws ++ 0x3A :: ws' ++ value)
  | lastElement
      {ws : List UInt8}
      (hSpace : Whitespace ws) :
      Derives strtod (.elements []) (ws ++ [0x5D])
  | nextElement
      {ws ws' value rest : List UInt8}
      {j : Json}
      {values : List Json}
      (hBefore : Whitespace ws)
      (hAfter : Whitespace ws')
      (hValue : Derives strtod (.value j) value)
      (hRest : Derives strtod (.elements values) rest) :
      Derives strtod (.elements (j :: values))
        (ws ++ 0x2C :: ws' ++ value ++ rest)
  | lastMember
      {ws : List UInt8}
      (hSpace : Whitespace ws) :
      Derives strtod (.members []) (ws ++ [0x7D])
  | nextMember
      {ws ws' text rest : List UInt8}
      {key : String}
      {j : Json}
      {entries : List (String × Json)}
      (hBefore : Whitespace ws)
      (hAfter : Whitespace ws')
      (hMember : Derives strtod (.member key j) text)
      (hRest : Derives strtod (.members entries) rest) :
      Derives strtod (.members ((key, j) :: entries))
        (ws ++ 0x2C :: ws' ++ text ++ rest)

------------------------------------------------------------
-- Documents
------------------------------------------------------------

/- The byte order mark. -/
def byteOrderMark : List UInt8 := [0xEF, 0xBB, 0xBF]

/-
  The bytes are a value with space around it, after the byte
  order mark or without it, up to the end or a null byte.
-/
def Document
    (strtod : Strtod)
    (body : List UInt8)
    (j : Json) : Prop :=
  ∃ mark ws text ws' rest,
    body = mark ++ ws ++ text ++ ws' ++ rest ∧
      (mark = [] ∨ mark = byteOrderMark) ∧
      Whitespace ws ∧ Whitespace ws' ∧
      Derives strtod (.value j) text ∧
      (rest = [] ∨ rest.head? = some 0x00)

end Json

end Poker

import Mathlib.Data.String.Defs
import AsciiPoker.Server.GameSession.State

/-
  Stored passwords (`password_hash.cpp`).

  A stored password is the text
  `pbkdf2-sha256$iterations$salt$key` with salt and key in
  hexadecimal.  The key is derived by OpenSSL, which is the
  parameter `pbkdf2` here; it has no key when OpenSSL
  reports a failure.  The salt of a new password is drawn by
  OpenSSL as well and comes in as an argument.

  A text of the source is any sequence of bytes, and here a
  list of characters below 256.  Where texts come from a
  database or a message they are strings.

  Main declarations:
    * `KeyDerivation`, `Pbkdf2`
    * `PasswordHasher.toHex`, `PasswordHasher.fromHex`,
      `PasswordHasher.stoi`
    * `PasswordHasher.hashText`, `PasswordHasher.verifyText`
    * `PasswordHasher.hash`, `PasswordHasher.verify`
-/

namespace Poker

namespace Server

/-
  `PKCS5_PBKDF2_HMAC` with SHA-256 and 32 bytes of key, from
  a password, a salt and a number of iterations.
-/
abbrev KeyDerivation
    (Password : Type) :=
  Password → List UInt8 → Int → Option (List UInt8)

abbrev Pbkdf2 :=
  KeyDerivation String

namespace PasswordHasher

def iterations : Int := 100000

def saltBytes : Nat := 16

def hashBytes : Nat := 32

/- The bytes of a text, each as a character. -/
def chars
    (text : String) : List Char :=
  text.toUTF8.toList.map fun byte => Char.ofNat byte.toNat

------------------------------------------------------------
-- Hexadecimal
------------------------------------------------------------

/- The digit of a number below sixteen. -/
def hexDigit
    (value : Nat) : Char :=
  "0123456789abcdef".toList.getD value '0'

/- The number of a digit, in either case. -/
def hexValue
    (c : Char) : Option Nat :=
  if '0' ≤ c && c ≤ '9' then
    some (c.toNat - '0'.toNat)
  else if 'a' ≤ c && c ≤ 'f' then
    some (c.toNat - 'a'.toNat + 10)
  else if 'A' ≤ c && c ≤ 'F' then
    some (c.toNat - 'A'.toNat + 10)
  else
    none

/- `to_hex`. -/
def toHex
    (data : List UInt8) : List Char :=
  data.flatMap fun byte =>
    [hexDigit (byte.toNat / 16), hexDigit (byte.toNat % 16)]

/- The characters that a stream skips before a number. -/
def isSpace
    (c : Char) : Bool :=
  c = ' ' || (9 ≤ c.toNat && c.toNat ≤ 13)

/-
  What a stream reads as a hexadecimal `unsigned` from two
  characters: it skips white space, takes a sign, and stops
  at the first character that is no digit.  A negative
  number is taken modulo 2 ^ 32, of which the last byte is
  kept, and nothing is read from `0x` alone.
-/
def readHexByte
    (first second : Char) : Option UInt8 :=
  if isSpace first then
    (hexValue second).map UInt8.ofNat
  else if first = '+' then
    (hexValue second).map UInt8.ofNat
  else if first = '-' then
    (hexValue second).map fun value =>
      UInt8.ofInt (- (value : Int))
  else
    match hexValue first with
    | none => none
    | some high =>
        match hexValue second with
        | some low => some (UInt8.ofNat (high * 16 + low))
        | none =>
            if high = 0 && (second = 'x' || second = 'X') then
              none
            else
              some (UInt8.ofNat high)

/- `from_hex`. -/
def fromHex : List Char → Option (List UInt8)
| [] => some []
| [_] => none
| first :: second :: rest =>
    match readHexByte first second with
    | none => none
    | some byte => (fromHex rest).map (byte :: ·)

------------------------------------------------------------
-- Decimal
------------------------------------------------------------

/- The number that a run of decimal digits stands for. -/
def decimal
    (digits : List Char) : Int :=
  digits.foldl
    (fun value c => value * 10 + (c.toNat - '0'.toNat)) 0

/- `std::stoi`. -/
def stoi
    (text : List Char) : Except Exn Int :=
  let text := text.dropWhile isSpace
  let (negative, text) :=
    match text with
    | '-' :: rest => (true, rest)
    | '+' :: rest => (false, rest)
    | rest => (false, rest)
  match text.takeWhile Char.isDigit with
  | [] => .error .invalidArgument
  | digits =>
      let value :=
        if negative then - decimal digits else decimal digits
      if value < -2 ^ 31 ∨ 2 ^ 31 ≤ value then
        .error .outOfRange
      else
        .ok value

------------------------------------------------------------
-- Hashing
------------------------------------------------------------

/- The kind of a stored password. -/
def scheme : List Char :=
  "pbkdf2-sha256".toList

variable {Password : Type}

/- `hash`, with the salt that was drawn for it. -/
def hashText
    (pbkdf2 : KeyDerivation Password)
    (password : Password)
    (salt : List UInt8) : Except Exn (List Char) :=
  match pbkdf2 password salt iterations with
  | none => .error .runtimeError
  | some key =>
      .ok <|
        scheme ++ '$' :: (toString iterations).toList ++
          '$' :: toHex salt ++ '$' :: toHex key

/- `hash` of a string. -/
def hash
    (pbkdf2 : Pbkdf2)
    (password : String)
    (salt : List UInt8) : Except Exn String :=
  (hashText pbkdf2 password salt).map String.ofList

/- Split a text at its first `$`. -/
def splitDollar
    (text : List Char) : Option (List Char × List Char) :=
  match text.dropWhile (· ≠ '$') with
  | [] => none
  | _ :: rest => some (text.takeWhile (· ≠ '$'), rest)

/- The four parts between the first three `$` of a text. -/
def splitStored
    (text : List Char) :
    Option (List Char × List Char × List Char × List Char) :=
  do
    let (kind, text) ← splitDollar text
    let (count, text) ← splitDollar text
    let (saltHex, hashHex) ← splitDollar text
    (kind, count, saltHex, hashHex)

/- `verify`. -/
def verifyText
    (pbkdf2 : KeyDerivation Password)
    (password : Password)
    (storedHash : List Char) : Except Exn Bool :=
  match splitStored storedHash with
  | none => .ok false
  | some (kind, count, saltHex, hashHex) =>
      if kind ≠ scheme then
        .ok false
      else do
        let iterations ← stoi count
        match fromHex saltHex, fromHex hashHex with
        | some salt, some expected =>
            if expected.length ≠ hashBytes then
              .ok false
            else
              match pbkdf2 password salt iterations with
              | none => .ok false
              | some actual => .ok (decide (actual = expected))
        | _, _ => .ok false

/- `verify` of strings. -/
def verify
    (pbkdf2 : Pbkdf2)
    (password : String)
    (storedHash : String) : Except Exn Bool :=
  verifyText pbkdf2 password (chars storedHash)

end PasswordHasher

end Server

end Poker

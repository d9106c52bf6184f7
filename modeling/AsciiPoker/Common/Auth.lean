import Mathlib.Data.String.Defs

/-
  User names and passwords (`auth.h`, `auth.cpp`).

  The source works on bytes in the C locale, where space,
  control, letter and digit are kinds of ASCII characters
  only.  Lengths are counted in bytes.

  Main declarations:
    * `Auth.trimCopy`
    * `Auth.isValidUsername`, `Auth.isValidPassword`
-/

namespace Poker

namespace Auth

------------------------------------------------------------
-- Characters
------------------------------------------------------------

/- `std::isspace`. -/
def isSpace
    (c : Char) : Bool :=
  c = ' ' || (9 ≤ c.toNat && c.toNat ≤ 13)

/- `std::iscntrl`. -/
def isCntrl
    (c : Char) : Bool :=
  c.toNat < 32 || c.toNat = 127

/- `std::isalpha`. -/
def isAlpha
    (c : Char) : Bool :=
  ('a' ≤ c && c ≤ 'z') || ('A' ≤ c && c ≤ 'Z')

/- `std::isdigit`. -/
def isDigit
    (c : Char) : Bool :=
  '0' ≤ c && c ≤ '9'

------------------------------------------------------------
-- User Names and Passwords
------------------------------------------------------------

def minUsernameLength : Nat := 1

def maxUsernameLength : Nat := 32

def minPasswordLength : Nat := 4

def maxPasswordLength : Nat := 128

/- `trim_copy`. -/
def trimCopy
    (value : String) : String :=
  let tail := value.toList.dropWhile isSpace
  String.ofList (tail.reverse.dropWhile isSpace).reverse

/- `is_valid_username`. -/
def isValidUsername
    (username : String) : Bool :=
  if username.utf8ByteSize < minUsernameLength ||
      username.utf8ByteSize > maxUsernameLength then
    false
  else
    username.toList.all fun c => ! isCntrl c

/- `is_valid_password`. -/
def isValidPassword
    (password : String) : Bool :=
  if password.utf8ByteSize < minPasswordLength ||
      password.utf8ByteSize > maxPasswordLength then
    false
  else
    password.toList.all (fun c => ! isCntrl c) &&
      password.toList.any isAlpha &&
      password.toList.any isDigit

end Auth

end Poker

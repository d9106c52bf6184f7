import AsciiPoker.Server.Storage.PasswordHash

/-
  The user repository (`user_repository.cpp`) over the table
  `users`.

  The column `username` is declared `COLLATE NOCASE UNIQUE`.
  The collation folds the twenty-six letters of ASCII and
  nothing else; `noCase` is the folded name.  The columns
  that no caller reads, `id` and the two times, are left
  out.

  An INSERT or UPDATE may fail, for want of room or because
  of a lock; which of those to come do is a part of the
  repository.  A SELECT is taken to find what is there.

  Main declarations:
    * `noCase`, `UserRecord`, `UserRepository`
    * `UserRepository.Reliable`
    * `UserRepository.findByUsername`,
      `UserRepository.verifyPassword`
    * `UserRepository.createUser`,
      `UserRepository.updateChips`
-/

------------------------------------------------------------
-- The Table
------------------------------------------------------------

namespace Poker

namespace Server

/- What `COLLATE NOCASE` compares. -/
def noCase
    (username : String) : String :=
  username.map Char.toLower

structure UserRecord where
  username : String
  passwordHash : String
  chips : UInt32
  deriving DecidableEq, Repr

/-
  The rows of `users`, oldest first, and which of the
  statements to come that change them fail: none after those
  listed.
-/
structure UserRepository where
  users : List UserRecord
  refusals : List Bool := []
  deriving DecidableEq, Repr

------------------------------------------------------------
-- Queries
------------------------------------------------------------

namespace UserRepository

/- `username = ? COLLATE NOCASE`. -/
def Matches
    (username : String)
    (user : UserRecord) : Prop :=
  noCase user.username = noCase username

instance
    (username : String)
    (user : UserRecord) :
    Decidable (Matches username user) :=
  inferInstanceAs (Decidable (_ = _))

/- `find_by_username`. -/
def findByUsername
    (repository : UserRepository)
    (username : String) : Option UserRecord :=
  repository.users.find? fun user => Matches username user

/- `username_exists`. -/
def usernameExists
    (repository : UserRepository)
    (username : String) : Bool :=
  (repository.findByUsername username).isSome

/- `verify_password`. -/
def verifyPassword
    (repository : UserRepository)
    (pbkdf2 : Pbkdf2)
    (username password : String) : Except Exn Bool :=
  match repository.findByUsername username with
  | none => .ok false
  | some user =>
      PasswordHasher.verify pbkdf2 password user.passwordHash

------------------------------------------------------------
-- Changes
------------------------------------------------------------

/- Whether the next statement fails. -/
def refuses
    (repository : UserRepository) : Bool :=
  repository.refusals.headD false

/- No statement to come fails. -/
def Reliable
    (repository : UserRepository) : Prop :=
  true ∉ repository.refusals

instance
    (repository : UserRepository) :
    Decidable repository.Reliable :=
  inferInstanceAs (Decidable (_ ∉ _))

/-
  `create_user`: whether the account was created, and the
  table after it.  There is no salt when `RAND_bytes` fails.
  The name is free, so that the INSERT breaks no constraint.
-/
def createUser
    (repository : UserRepository)
    (pbkdf2 : Pbkdf2)
    (username password : String)
    (chips : UInt32)
    (salt : Option (List UInt8)) :
    Except Exn (Bool × UserRepository) :=
  if repository.usernameExists username then
    .ok (false, repository)
  else
    match salt with
    | none => .error .runtimeError
    | some salt => do
        let passwordHash ←
          PasswordHasher.hash pbkdf2 password salt
        if repository.refuses then
          .error .databaseError
        else
          .ok (true,
            { users := repository.users ++
                [⟨username, passwordHash, chips⟩]
              refusals := repository.refusals.tail })

/- `update_chips`; a failure is logged and nothing else. -/
def updateChips
    (repository : UserRepository)
    (username : String)
    (chips : UInt32) : UserRepository where
  users :=
    if repository.refuses then
      repository.users
    else
      repository.users.map fun user =>
        if Matches username user then
          { user with chips := chips }
        else
          user
  refusals := repository.refusals.tail

variable {repository : UserRepository}

/- A statement of a reliable repository is carried out. -/
theorem Reliable.refuses
    (hReliable : repository.Reliable) :
    repository.refuses = false := by
  unfold UserRepository.refuses
  cases hList : repository.refusals with
  | nil => rfl
  | cons first rest =>
      unfold Reliable at hReliable
      rw [hList, List.mem_cons, not_or] at hReliable
      exact Bool.eq_false_iff.mpr (Ne.symm hReliable.1)

theorem Reliable.updateChips
    (hReliable : repository.Reliable)
    (username : String)
    (chips : UInt32) :
    (repository.updateChips username chips).Reliable :=
  fun hMem => hReliable (List.mem_of_mem_tail hMem)

end UserRepository

end Server

end Poker

import AsciiPoker.Server.Lobby.Balances

/-
  What the lobby leaves alone of the accounts.

  A game stores chips.  The names and passwords of the
  accounts are those that logins have put there.

  Main declarations:
    * `UserRepository.credentials`, `UserRepository.Distinct`
    * `Room.Evolves.credentials`
    * `Lobby.step_credentials`
-/

namespace Poker

namespace Server

open Protocol

------------------------------------------------------------
-- Names and Passwords
------------------------------------------------------------

namespace UserRepository

/- The name and the stored password of each account. -/
def credentials
    (users : UserRepository) : List (String × String) :=
  users.users.map fun user =>
    (user.username, user.passwordHash)

/- No two accounts have one name, in any spelling. -/
def Distinct
    (users : UserRepository) : Prop :=
  (users.users.map fun user => noCase user.username).Nodup

/- It can be checked of a table. -/
instance (users : UserRepository) : Decidable users.Distinct :=
  inferInstanceAs (Decidable (List.Nodup _))

variable {users after : UserRepository}
variable {username : String}

/- Chips are none of the credentials. -/
@[simp] theorem updateChips_credentials
    (users : UserRepository)
    (username : String)
    (chips : UInt32) :
    (users.updateChips username chips).credentials =
      users.credentials := by
  unfold credentials updateChips
  dsimp only
  split
  · rfl
  · rw [List.map_map]
    refine List.map_congr_left fun user _ => ?_
    dsimp only [Function.comp]
    split
    · rfl
    · rfl

/- The names can be read off the credentials. -/
theorem distinct_iff :
    users.Distinct ↔
      (users.credentials.map fun entry =>
        noCase entry.1).Nodup := by
  unfold Distinct credentials
  rw [List.map_map]
  exact Iff.rfl

/- The stored password that a name leads to. -/
def hashOf
    (users : UserRepository)
    (username : String) : Option String :=
  (users.findByUsername username).map UserRecord.passwordHash

/- The first entry with the name is the one. -/
theorem hashOf_eq
    (users : UserRepository)
    (username : String) :
    users.hashOf username =
      (users.credentials.find? fun entry =>
        noCase entry.1 = noCase username).map Prod.snd := by
  unfold hashOf findByUsername credentials
  rw [List.find?_map, Option.map_map]
  rfl

/- A name exists when it has a password. -/
theorem usernameExists_eq
    (users : UserRepository)
    (username : String) :
    users.usernameExists username =
      (users.hashOf username).isSome := by
  unfold usernameExists hashOf
  rw [Option.isSome_map]

/- A password is checked against nothing else. -/
theorem verifyPassword_eq
    (users : UserRepository)
    (pbkdf2 : Pbkdf2)
    (username password : String) :
    users.verifyPassword pbkdf2 username password =
      match users.hashOf username with
      | none => .ok false
      | some passwordHash =>
          PasswordHasher.verify pbkdf2 password
            passwordHash := by
  unfold verifyPassword hashOf
  cases users.findByUsername username with
  | none => rfl
  | some user => rfl

/- What is added later stands behind what is there. -/
theorem hashOf_of_prefix
    {made : List (String × String)}
    (hAfter : after.credentials = users.credentials ++ made)
    (hExists : users.usernameExists username = true) :
    after.hashOf username = users.hashOf username := by
  rw [usernameExists_eq, hashOf_eq, Option.isSome_map,
    Option.isSome_iff_exists] at hExists
  rcases hExists with ⟨entry, hFind⟩
  rw [hashOf_eq, hashOf_eq, hAfter, List.find?_append, hFind,
    Option.some_or]

end UserRepository

------------------------------------------------------------
-- Playing
------------------------------------------------------------

namespace World

/- The credentials of the accounts of a world. -/
def credentials
    (world : World) : Option (List (String × String)) :=
  world.repository.map UserRepository.credentials

variable {world after : World}

/- By induction over the effects. -/
theorem performSince_credentials
    (world : World)
    (s t : GameSession) :
    (world.performSince s t).credentials =
      world.credentials := by
  unfold performSince
  generalize t.log.drop s.log.length = effects
  induction effects generalizing world with
  | nil => rfl
  | cons effect effects ih =>
      rw [List.foldl_cons, ih]
      cases effect with
      | send player msg => rfl
      | updateChips username chips =>
          unfold credentials perform
          rw [Option.map_map]
          congr 1
          funext users
          exact users.updateChips_credentials username chips

/- A message changes no account. -/
theorem Told.credentials
    (hTold : world.Told after) :
    after.credentials = world.credentials := by
  rcases hTold with ⟨_, rfl⟩
  rfl

end World

/- A game changes chips only. -/
theorem Room.Evolves.credentials
    {room after : Room}
    {world world' : World}
    (hEvolves : room.Evolves after world world') :
    world'.credentials = world.credentials := by
  cases hEvolves with
  | rested hSession hTold => exact hTold.credentials
  | called hSession hOk hFinish hKept hTold =>
      rw [hTold.credentials, World.performSince_credentials]
  | created hNone hTold hLoad hFinish hSession hSent =>
      rw [hSent.credentials, World.performSince_credentials,
        hTold.credentials]

namespace Lobby

variable {lobby mid left new : Lobby}
variable {player : ConnId}
variable {shuffles : List Shuffle}
variable {ptr : RoomPtr}

/- Whoever leaves stores chips at most. -/
theorem Departs.credentials
    (hDeparts : lobby.Departs player shuffles left)
    (hTidy : lobby.Tidy) :
    left.world.credentials = lobby.world.credentials := by
  rcases hDeparts.rewrites hTidy with
    ⟨_, rfl⟩ | ⟨ptr, room, after, hRewrites, _⟩
  · rfl
  · exact hRewrites.evolves.credentials

/- So does a game that starts. -/
theorem Arrives.credentials
    (hArrives : lobby.Arrives player shuffles ptr new) :
    new.world.credentials = lobby.world.credentials := by
  rcases hArrives.rewrites with ⟨room, after, hRewrites, _⟩
  exact hRewrites.evolves.credentials

/- No call of the lobby makes an account or drops one. -/
theorem step_credentials
    {call : Call}
    (hTidy : lobby.Tidy)
    (hOk : lobby.step call = .ok new) :
    new.world.credentials = lobby.world.credentials := by
  cases moves_of_ok hTidy hOk with
  | nothing => rfl
  | leaves hDeparts => exact hDeparts.credentials hTidy
  | enters hDeparts hArrives =>
      exact hArrives.credentials.trans
        (hDeparts.credentials hTidy)
  | makes hDeparts hArrives =>
      exact hArrives.credentials.trans
        (hDeparts.credentials hTidy)
  | plays hPlays =>
      rcases hPlays.rewrites hTidy with
        ⟨ptr, room, after, hRewrites, _⟩
      exact hRewrites.evolves.credentials

/- The same of the lobby. -/
theorem Told.credentials
    (hTold : mid.Told new) :
    new.world.credentials = mid.world.credentials := by
  rcases hTold with ⟨world, hTold, rfl⟩
  exact hTold.credentials

end Lobby

end Server

end Poker

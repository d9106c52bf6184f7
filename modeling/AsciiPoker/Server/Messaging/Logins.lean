import AsciiPoker.Server.Messaging.Accounts
import AsciiPoker.Server.Messaging.Handshake

/-
  What a packet and a disconnect do to the connections.

  A packet is answered with an error, is a request of an
  authenticated connection, or is a login that opens an
  account: a new one, or one that has its password.  Then
  the name registry alone decides whether the connection
  enters.

  Main declarations:
    * `UserRepository.Opens`
    * `Handshake.Online`
    * `Handshake.loginOf`, `Handshake.Accepts`,
      `Handshake.Admits`
    * `Handshake.Processed`, `Handshake.processed_of_ok`
    * `Handshake.Quiet`, `Handshake.Enters`
    * `Handshake.processMessage_of_ok`,
      `Handshake.onDisconnect_of_ok`
-/

namespace Poker

namespace Server

open Protocol

------------------------------------------------------------
-- Accounts
------------------------------------------------------------

namespace UserRepository

variable {users : UserRepository}
variable {username : String}

/- An account that is found is in the table. -/
theorem matches_of_find
    {user : UserRecord}
    (hFind : users.findByUsername username = some user) :
    user ∈ users.users ∧ Matches username user := by
  unfold findByUsername at hFind
  refine ⟨List.mem_of_find?_eq_some hFind, ?_⟩
  simpa using List.find?_some hFind

/- Whoever is verified has an account. -/
theorem exists_of_verifyPassword
    {pbkdf2 : Pbkdf2}
    {password : String}
    (hVerify : users.verifyPassword pbkdf2 username password =
      .ok true) :
    ∃ user, users.findByUsername username = some user := by
  unfold verifyPassword at hVerify
  split at hVerify
  · cases hVerify
  · rename_i user hFind
    exact ⟨user, hFind⟩

/-
  The account that a login opens, with the table after it:
  one that is made with this password, or one that is there
  and has it.
-/
inductive Opens
    (pbkdf2 : Pbkdf2)
    (users : UserRepository)
    (username password : String) :
    Bool → UserRepository → Prop
  | created
      {salt : List UInt8}
      {passwordHash : String}
      (hNew : users.usernameExists username = false)
      (hHash : PasswordHasher.hash pbkdf2 password salt =
        .ok passwordHash) :
      Opens pbkdf2 users username password true
        { users := users.users ++
            [⟨username, passwordHash, STARTING_CHIPS⟩]
          refusals := users.refusals.tail }
  | verified
      (hExists : users.usernameExists username = true)
      (hVerify : users.verifyPassword pbkdf2 username
        password = .ok true) :
      Opens pbkdf2 users username password false users

section Opens

variable {pbkdf2 : Pbkdf2}
variable {password : String}
variable {isNewAccount : Bool}
variable {after : UserRepository}

/- A name that is not there is given an account. -/
theorem createUser_of_ok
    {salt : Option (List UInt8)}
    {created : Bool}
    (hNew : users.usernameExists username = false)
    (hOk : users.createUser pbkdf2 username password
      STARTING_CHIPS salt = .ok (created, after)) :
    created = true ∧
      users.Opens pbkdf2 username password true after := by
  unfold createUser at hOk
  rw [if_neg (by simp [hNew])] at hOk
  split at hOk
  · cases hOk
  · rcases Except.bind_eq_ok.mp hOk with
      ⟨passwordHash, hHash, hRest⟩
    split at hRest
    · cases hRest
    · cases hRest
      exact ⟨rfl, Opens.created hNew hHash⟩

/- The account that was added under a new name is found. -/
theorem find_of_added
    {passwordHash : String}
    {chips : UInt32}
    {refusals : List Bool}
    (hNew : users.usernameExists username = false) :
    findByUsername
        { users := users.users ++
            [⟨username, passwordHash, chips⟩]
          refusals := refusals } username =
      some ⟨username, passwordHash, chips⟩ := by
  have hNone : users.findByUsername username = none := by
    simpa [usernameExists] using hNew
  unfold findByUsername at hNone ⊢
  rw [List.find?_append, hNone]
  simp [Matches]

/- An account that was opened is found. -/
theorem Opens.find
    (hOpens : users.Opens pbkdf2 username password
      isNewAccount after) :
    ∃ user, after.findByUsername username = some user := by
  cases hOpens with
  | created hNew hHash => exact ⟨_, find_of_added hNew⟩
  | verified hExists hVerify =>
      exact exists_of_verifyPassword hVerify

/- No account is lost. -/
theorem Opens.grows
    (hOpens : users.Opens pbkdf2 username password
      isNewAccount after) :
    ∀ user ∈ users.users, user ∈ after.users := by
  cases hOpens with
  | created hNew hHash =>
      exact fun user hUser => List.mem_append_left _ hUser
  | verified hExists hVerify => exact fun user hUser => hUser

/- An account that was there had the password. -/
theorem Opens.verify
    (hOpens : users.Opens pbkdf2 username password
      isNewAccount after)
    (hExists : users.usernameExists username = true) :
    users.verifyPassword pbkdf2 username password =
      .ok true := by
  cases hOpens with
  | created hNew hHash =>
      rw [hNew] at hExists
      cases hExists
  | verified _ hVerify => exact hVerify

end Opens

end UserRepository

namespace Handshake

------------------------------------------------------------
-- Being Online
------------------------------------------------------------

/- The name a connection goes by. -/
def name
    (h : Handshake)
    (c : ConnId) : String :=
  h.lobby.world.names c

/- Authenticated and not disconnected. -/
def Online
    (h : Handshake)
    (c : ConnId) : Prop :=
  c ∈ h.authenticated ∧ c ∉ h.closed

------------------------------------------------------------
-- Logins
------------------------------------------------------------

/- The login that a body carries. -/
def loginOf
    (parse : Parser)
    (body : List UInt8) : Option Login :=
  match parse body with
  | .value data =>
      match data.atKey "type" >>= Json.getString with
      | .ok type =>
          if type = "login" then
            (data.atKey "data" >>= Login.fromJson).toOption
          else
            none
      | .error _ => none
  | _ => none

/-
  The user name and the password are well formed and, if
  there is such an account, it has this password.
-/
def Accepts
    (pbkdf2 : Pbkdf2)
    (h : Handshake)
    (login : Login) : Prop :=
  Auth.isValidUsername (Auth.trimCopy login.username) = true ∧
    Auth.isValidPassword login.password = true ∧
    ∃ users ∈ h.lobby.world.repository,
      users.usernameExists (Auth.trimCopy login.username) =
          true →
        users.verifyPassword pbkdf2
          (Auth.trimCopy login.username) login.password =
            .ok true

/-
  The body logs in a connection that is not logged in yet,
  under this name and with what is asked for it.
-/
def Admits
    (parse : Parser)
    (pbkdf2 : Pbkdf2)
    (h : Handshake)
    (c : ConnId)
    (body : List UInt8)
    (username : String) : Prop :=
  c ∉ h.authenticated ∧
    ∃ login, loginOf parse body = some login ∧
      h.Accepts pbkdf2 login ∧
      username = Auth.trimCopy login.username

------------------------------------------------------------
-- What Becomes of a Packet
------------------------------------------------------------

variable {parse : Parser}
variable {pbkdf2 : Pbkdf2}
variable {h after : Handshake}
variable {c : ConnId}
variable {username : String}
variable {salt : Option (List UInt8)}

/-
  A packet is answered with an error, is a request, or is a
  login whose account is opened.
-/
inductive Processed
    (parse : Parser)
    (pbkdf2 : Pbkdf2)
    (h : Handshake)
    (c : ConnId)
    (body : List UInt8) : Handshake → Prop
  | refused
      {code : ErrorCode}
      {detail : String}
      (hNobody : ∀ username,
        ¬ h.Admits parse pbkdf2 c body username) :
      Processed parse pbkdf2 h c body
        (h.sendError c code detail)
  | requested
      {msg : ClientMessage}
      {draws : Draws}
      {lobby : Lobby}
      (hThere : c ∈ h.authenticated)
      (hOk : h.lobby.processClientMessage msg c draws =
        .ok lobby) :
      Processed parse pbkdf2 h c body { h with lobby := lobby }
  | opened
      {login : Login}
      {users users' : UserRepository}
      {user : UserRecord}
      {isNewAccount : Bool}
      (hNew : c ∉ h.authenticated)
      (hLogin : loginOf parse body = some login)
      (hUsers : h.lobby.world.repository = some users)
      (hName : Auth.isValidUsername
        (Auth.trimCopy login.username) = true)
      (hPassword : Auth.isValidPassword login.password = true)
      (hOpens : users.Opens pbkdf2
        (Auth.trimCopy login.username) login.password
        isNewAccount users')
      (hFind : users'.findByUsername
        (Auth.trimCopy login.username) = some user) :
      Processed parse pbkdf2 h c body
        ((h.setUsers users').finishAuthentication
          (Auth.trimCopy login.username) c user.chips
          isNewAccount)

/- Writing back the table that was read changes nothing. -/
theorem setUsers_self
    {users : UserRepository}
    (hUsers : h.lobby.world.repository = some users) :
    h.setUsers users = h := by
  unfold setUsers
  rw [← hUsers]

/- An account that was opened is found at the end. -/
theorem finishLogin_of_opens
    {users users' : UserRepository}
    {password : String}
    {isNewAccount : Bool}
    (hOpens : users.Opens pbkdf2 username password
      isNewAccount users') :
    ∃ user, users'.findByUsername username = some user ∧
      h.finishLogin users' username c isNewAccount =
        h.finishAuthentication username c user.chips
          isNewAccount := by
  rcases hOpens.find with ⟨user, hFind⟩
  refine ⟨user, hFind, ?_⟩
  unfold finishLogin
  rw [hFind]

/- A password that is checked. -/
theorem verifyLogin_of_ok
    {users : UserRepository}
    {password : String}
    (hUsers : h.lobby.world.repository = some users)
    (hExists : users.usernameExists username = true)
    (hOk : h.verifyLogin pbkdf2 users username password c =
      .ok after) :
    (users.verifyPassword pbkdf2 username password ≠
        .ok true ∧
      after = h.sendError c .wrongPassword "") ∨
      ∃ user,
        users.Opens pbkdf2 username password false users ∧
        users.findByUsername username = some user ∧
        after = (h.setUsers users).finishAuthentication
          username c user.chips false := by
  unfold verifyLogin at hOk
  rcases Except.bind_eq_ok.mp hOk with
    ⟨verified, hVerify, hRest⟩
  cases verified with
  | false =>
      cases hRest
      exact Or.inl ⟨by rw [hVerify]; simp, rfl⟩
  | true =>
      cases hRest
      have hOpens := UserRepository.Opens.verified hExists
        hVerify
      rcases finishLogin_of_opens (h := h) (c := c) hOpens
        with ⟨user, hFind, hFinish⟩
      refine Or.inr ⟨user, hOpens, hFind, ?_⟩
      rw [setUsers_self hUsers]
      exact hFinish

/-
  What `handle_login` comes to: an error, if the login is
  not acceptable, and otherwise an account is opened.
-/
theorem handleLogin_of_ok
    {login : Login}
    (hOk : h.handleLogin pbkdf2 login c salt = .ok after) :
    (¬ h.Accepts pbkdf2 login ∧
        ∃ code, after = h.sendError c code "") ∨
      ∃ users users' user isNewAccount,
        h.lobby.world.repository = some users ∧
        Auth.isValidUsername
          (Auth.trimCopy login.username) = true ∧
        Auth.isValidPassword login.password = true ∧
        users.Opens pbkdf2 (Auth.trimCopy login.username)
          login.password isNewAccount users' ∧
        users'.findByUsername
          (Auth.trimCopy login.username) = some user ∧
        after = (h.setUsers users').finishAuthentication
          (Auth.trimCopy login.username) c user.chips
          isNewAccount := by
  unfold handleLogin at hOk
  dsimp only at hOk
  by_cases hName : Auth.isValidUsername
      (Auth.trimCopy login.username) = true
  · rw [if_neg (by simpa using hName)] at hOk
    by_cases hPassword :
        Auth.isValidPassword login.password = true
    · rw [if_neg (by simpa using hPassword)] at hOk
      rcases Except.bind_eq_ok.mp hOk with
        ⟨users, hRequire, hRest⟩
      have hUsers := require_eq_ok.mp hRequire
      by_cases hExists : users.usernameExists
          (Auth.trimCopy login.username) = true
      · rw [if_neg (by simpa using hExists)] at hRest
        rcases verifyLogin_of_ok hUsers hExists hRest with
          ⟨hWrong, hSent⟩ | ⟨user, hOpens, hFind, hFinish⟩
        · refine Or.inl ⟨?_, _, hSent⟩
          rintro ⟨_, _, found, hFound, hAll⟩
          rw [hUsers] at hFound
          cases hFound
          exact hWrong (hAll hExists)
        · exact Or.inr ⟨users, users, user, false, hUsers,
            hName, hPassword, hOpens, hFind, hFinish⟩
      · rw [if_pos (by simpa using hExists)] at hRest
        rcases Except.bind_eq_ok.mp hRest with
          ⟨⟨created, users'⟩, hCreate, hFinish⟩
        rcases UserRepository.createUser_of_ok
            (by simpa using hExists) hCreate with
          ⟨rfl, hOpens⟩
        cases hFinish
        rcases finishLogin_of_opens
            (h := h.setUsers users') (c := c) hOpens with
          ⟨user, hFind, hFinish⟩
        exact Or.inr ⟨users, users', user, true, hUsers, hName,
          hPassword, hOpens, hFind, hFinish⟩
    · rw [if_pos (by simpa using hPassword)] at hOk
      cases hOk
      exact Or.inl ⟨fun hAll => hPassword hAll.2.1, _, rfl⟩
  · rw [if_pos (by simpa using hName)] at hOk
    cases hOk
    exact Or.inl ⟨fun hAll => hName hAll.1, _, rfl⟩

/- A body of another type carries no login. -/
theorem loginOf_of_type
    {body : List UInt8}
    {data : Json}
    {type : String}
    (hParse : parse body = .value data)
    (hType : data.atKey "type" >>= Json.getString =
      .ok type)
    (hOther : type ≠ "login") :
    loginOf parse body = none := by
  unfold loginOf
  rw [hParse]
  dsimp only
  rw [hType]
  exact if_neg hOther

/- A body of type `login` carries what its data reads as. -/
theorem loginOf_of_login
    {body : List UInt8}
    {data : Json}
    (hParse : parse body = .value data)
    (hType : data.atKey "type" >>= Json.getString =
      .ok "login") :
    loginOf parse body =
      (data.atKey "data" >>= Login.fromJson).toOption := by
  unfold loginOf
  rw [hParse]
  dsimp only
  rw [hType]
  exact if_pos rfl

/- An exception that nobody catches leaves no result. -/
theorem uncaught_eq_ok
    {α : Type}
    {x : Except String α}
    {a : α} :
    uncaught x = .ok a ↔ x = .ok a := by
  cases x with
  | error what => simp [uncaught]
  | ok b => simp [uncaught]

/- A body without a login admits nobody. -/
theorem not_admits_of_loginOf
    {body : List UInt8}
    (hNone : loginOf parse body = none) :
    ∀ username, ¬ h.Admits parse pbkdf2 c body username := by
  rintro username ⟨_, login, hLogin, _⟩
  rw [hNone] at hLogin
  cases hLogin

/- A login that is not acceptable admits nobody. -/
theorem not_admits_of_accepts
    {body : List UInt8}
    {login : Login}
    (hLogin : loginOf parse body = some login)
    (hRefused : ¬ h.Accepts pbkdf2 login) :
    ∀ username, ¬ h.Admits parse pbkdf2 c body username := by
  rintro username ⟨_, other, hOther, hYes, _⟩
  rw [hLogin] at hOther
  cases hOther
  exact hRefused hYes

/- Nothing else becomes of a packet. -/
theorem processed_of_ok
    {body : List UInt8}
    {draws : Draws}
    (hOk : h.processMessage parse pbkdf2 body c draws salt =
      .ok after) :
    h.Processed parse pbkdf2 c body after := by
  unfold processMessage at hOk
  split at hOk
  · rename_i what hParse
    unfold sendParseError at hOk
    split at hOk
    · cases hOk
    · cases hOk
      apply Processed.refused
      apply not_admits_of_loginOf
      simp [loginOf, hParse]
  · cases hOk
  · rename_i data hParse
    rcases Except.bind_eq_ok.mp hOk with
      ⟨type, hRead, hRest⟩
    have hType := uncaught_eq_ok.mp hRead
    by_cases hLogin : type = "login"
    · subst hLogin
      rw [if_pos rfl] at hRest
      unfold onLogin at hRest
      have hLoginOf := loginOf_of_login hParse hType
      by_cases hThere : c ∈ h.authenticated
      · rw [if_pos hThere] at hRest
        cases hRest
        exact Processed.refused fun _ hAdmits =>
          hAdmits.1 hThere
      · rw [if_neg hThere] at hRest
        cases hData : data.atKey "data" >>= Login.fromJson with
        | error what =>
            rw [hData] at hRest hLoginOf
            cases hRest
            exact Processed.refused
              (not_admits_of_loginOf hLoginOf)
        | ok login =>
            rw [hData] at hRest hLoginOf
            rcases handleLogin_of_ok hRest with
              ⟨hRefused, code, rfl⟩ |
                ⟨users, users', user, isNewAccount, hUsers,
                  hName, hPassword, hOpens, hFind, rfl⟩
            · exact Processed.refused
                (not_admits_of_accepts hLoginOf hRefused)
            · exact Processed.opened hThere hLoginOf hUsers
                hName hPassword hOpens hFind
    · rw [if_neg hLogin] at hRest
      have hNone := loginOf_of_type hParse hType hLogin
      unfold onRequest at hRest
      split at hRest
      · cases hRest
        exact Processed.refused (not_admits_of_loginOf hNone)
      · rename_i hThere
        split at hRest
        · cases hRest
          exact Processed.refused
            (not_admits_of_loginOf hNone)
        · rcases Except.bind_eq_ok.mp hRest with
            ⟨lobby, hProcess, hEnd⟩
          cases hEnd
          exact Processed.requested (not_not.mp hThere) hProcess

------------------------------------------------------------
-- Coming Online
------------------------------------------------------------

/- Nobody comes or goes; accounts may be added. -/
structure Quiet
    (h after : Handshake) : Prop where
  nameRegistry : after.nameRegistry = h.nameRegistry
  authenticated : after.authenticated = h.authenticated
  closed : after.closed = h.closed
  world : h.lobby.world.Keeps after.lobby.world

/- A connection comes online under a name not registered. -/
structure Enters
    (h : Handshake)
    (c : ConnId)
    (username : String)
    (after : Handshake) : Prop where
  fresh : username ∉ h.nameRegistry
  nameRegistry : after.nameRegistry =
    insert username h.nameRegistry
  authenticated : after.authenticated =
    insert c h.authenticated
  closed : after.closed = h.closed
  names : after.lobby.world.names =
    Function.update h.lobby.world.names c username
  stores : ∀ name, h.lobby.world.Stores name →
    after.lobby.world.Stores name
  stored : after.lobby.world.Stores username

theorem Quiet.refl
    (h : Handshake) :
    h.Quiet h :=
  ⟨rfl, rfl, rfl, World.Keeps.refl _⟩

theorem sendError_quiet
    (h : Handshake)
    (c : ConnId)
    (code : ErrorCode)
    (detail : String) :
    h.Quiet (h.sendError c code detail) :=
  ⟨rfl, rfl, rfl, World.send_keeps _ c _⟩

/- Every account that was there is there still. -/
theorem Stores.of_setUsers
    {users users' : UserRepository}
    {name : String}
    (hUsers : h.lobby.world.repository = some users)
    (hGrows : ∀ user ∈ users.users, user ∈ users'.users)
    (hStores : h.lobby.world.Stores name) :
    (h.setUsers users').lobby.world.Stores name := by
  rcases hStores with ⟨found, hFound, user, hUser, hMatches⟩
  rw [hUsers] at hFound
  cases hFound
  exact ⟨users', rfl, user, hGrows user hUser, hMatches⟩

/- Whether a name enters is up to the name registry. -/
theorem finishAuthentication_outcome
    {users users' : UserRepository}
    {user : UserRecord}
    {password : String}
    {isNewAccount : Bool}
    (hUsers : h.lobby.world.repository = some users)
    (hOpens : users.Opens pbkdf2 username password
      isNewAccount users')
    (hFind : users'.findByUsername username = some user) :
    (username ∈ h.nameRegistry ∧ h.Quiet
        ((h.setUsers users').finishAuthentication username c
          user.chips isNewAccount)) ∨
      h.Enters c username
        ((h.setUsers users').finishAuthentication username c
          user.chips isNewAccount) := by
  have hStores : ∀ name, h.lobby.world.Stores name →
      (h.setUsers users').lobby.world.Stores name :=
    fun _ hStores =>
      Stores.of_setUsers hUsers hOpens.grows hStores
  have hRegistry : (h.setUsers users').nameRegistry =
      h.nameRegistry := rfl
  unfold finishAuthentication
  rw [hRegistry]
  by_cases hTaken : username ∈ h.nameRegistry
  · rw [if_pos hTaken]
    exact Or.inl ⟨hTaken, rfl, rfl, rfl, rfl, hStores⟩
  · rw [if_neg hTaken]
    rcases UserRepository.matches_of_find hFind with
      ⟨hMem, hMatches⟩
    exact Or.inr ⟨hTaken, rfl, rfl, rfl, rfl, hStores,
      ⟨users', rfl, user, hMem, hMatches⟩⟩

/-
  What a packet comes to: nobody is admitted and nothing
  happens, or somebody is and the name registry decides.
-/
theorem processMessage_of_ok
    {body : List UInt8}
    {draws : Draws}
    (hOk : h.processMessage parse pbkdf2 body c draws salt =
      .ok after) :
    ((∀ username,
          ¬ h.Admits parse pbkdf2 c body username) ∧
        h.Quiet after) ∨
      ∃ username, h.Admits parse pbkdf2 c body username ∧
        ((username ∈ h.nameRegistry ∧ h.Quiet after) ∨
          h.Enters c username after) := by
  cases processed_of_ok hOk with
  | refused hNobody =>
      exact Or.inl ⟨hNobody, h.sendError_quiet c _ _⟩
  | requested hThere hProcess =>
      have hKeeps := Lobby.processClientMessage_keeps hProcess
      exact Or.inl ⟨fun _ hAdmits => hAdmits.1 hThere,
        rfl, rfl, rfl, hKeeps.world⟩
  | opened hNew hLogin hUsers hName hPassword hOpens hFind =>
      have hAccepts : h.Accepts pbkdf2 _ :=
        ⟨hName, hPassword, _, hUsers, hOpens.verify⟩
      exact Or.inr ⟨_, ⟨hNew, _, hLogin, hAccepts, rfl⟩,
        finishAuthentication_outcome hUsers hOpens hFind⟩

------------------------------------------------------------
-- What a Disconnect Does
------------------------------------------------------------

/- A connection goes, and its name with it if it had one. -/
theorem onDisconnect_of_ok
    {shuffles : List Shuffle}
    (hOk : h.onDisconnect c shuffles = .ok after) :
    after.nameRegistry =
        (if c ∈ h.authenticated then
          h.nameRegistry.erase (h.name c)
        else
          h.nameRegistry) ∧
      after.authenticated = h.authenticated ∧
      after.closed = insert c h.closed ∧
      h.lobby.world.Keeps after.lobby.world := by
  unfold onDisconnect at hOk
  rcases Except.bind_eq_ok.mp hOk with ⟨lobby, hLeave, hEnd⟩
  cases hEnd
  have hKeeps := (Lobby.leaveRoom_keeps hLeave).world
  by_cases hThere : c ∈ h.authenticated
  · simp only [hThere, if_true] at hKeeps ⊢
    exact ⟨rfl, rfl, rfl, hKeeps⟩
  · simp only [hThere, if_false, true_and] at hKeeps ⊢
    exact hKeeps

end Handshake

end Server

end Poker

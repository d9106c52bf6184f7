import AsciiPoker.Common.Json.Parser
import AsciiPoker.Server.Lobby.Exhaustion
import AsciiPoker.Server.Lobby.SmallRooms
import AsciiPoker.Server.Messaging.AccountTable
import AsciiPoker.Server.Storage.StoredPasswords

/-
  What ends the server.

  `on_message` has no handler, so that an exception which
  leaves `process_message` or `on_disconnect` ends the loop
  of `main`.  There are three causes: a body that has no type
  which could be read, a login whose account can neither be
  made nor checked, and a request whose game runs out of
  cards.  The last has no part while no room has more seats
  than the deck serves.

  An event brings the shuffles it draws.  One that brings too
  few fails with `notEnabled`, which stands for no exception.

  Main declarations:
    * `Lobby.callOf`, `Lobby.processClientMessage_failsOnly`
    * `Handshake.Unreadable`, `UserRepository.Unopenable`
    * `Handshake.Fatal`, `Handshake.Exhausts`,
      `Handshake.throws_processMessage`
    * `Handshake.Run.throws_iff`
-/

namespace Poker

namespace Server

open Protocol

------------------------------------------------------------
-- Requests
------------------------------------------------------------

namespace Lobby

variable {Kind : Exn → Prop}
variable {lobby : Lobby}
variable {c : ConnId}

/- A request fails only as the games of the lobby do. -/
theorem processClientMessage_failsOnly
    (hTidy : lobby.Tidy)
    (hEach : lobby.Each (Room.FinishesOnly Kind))
    (msg : ClientMessage)
    (draws : Draws) :
    (lobby.processClientMessage msg c draws).FailsOnly
      Kind := by
  cases msg with
  | login msg => exact Except.failsOnly_ok _
  | createRoom msg =>
      simp only [processClientMessage, onCreateRoom]
      split
      · exact Except.failsOnly_ok _
      · split
        · exact Except.failsOnly_ok _
        · exact (hTidy.createRoom_failsOnly hEach).map
  | joinRoom msg =>
      exact (hTidy.joinRoom_failsOnly hEach).bind
        fun _ _ => Except.failsOnly_ok _
  | leaveRoom =>
      refine Except.FailsOnly.bind ?_ fun _ _ => ?_
      · unfold presentRoomId findRoomByPlayer
        split
        · exact Except.failsOnly_ok _
        next ptr hFind =>
          exact (hTidy.roomOf_failsOnly hFind).map
      · exact (hTidy.leaveRoom_failsOnly hEach).bind
          fun _ _ => Except.failsOnly_ok _
  | listRooms =>
      exact hTidy.getRoomList_failsOnly.bind
        fun _ _ => Except.failsOnly_ok _
  | startGame =>
      exact (hTidy.startGame_failsOnly hEach).bind
        fun _ _ => Except.failsOnly_ok _
  | playerAction msg =>
      simp only [processClientMessage, onPlayerAction]
      split
      · exact Except.failsOnly_ok _
      · exact hTidy.playerAction_failsOnly hEach

/- The call that a request comes to, if it is not refused. -/
def callOf
    (msg : ClientMessage)
    (connection : ConnId)
    (draws : Draws) : Option Call :=
  match msg with
  | .login _ => none
  | .createRoom msg =>
      some (.createRoom msg.roomName msg.maxPlayers
        connection draws)
  | .joinRoom msg =>
      some (.joinRoom msg.roomId connection draws)
  | .leaveRoom =>
      some (.leaveRoom connection draws.leaving)
  | .listRooms => none
  | .startGame =>
      some (.startGame connection draws.starting)
  | .playerAction msg =>
      some (.playerAction connection msg.action msg.amount
        draws.starting)

/- A request throws exactly when its call does. -/
theorem throws_processClientMessage
    (hTidy : lobby.Tidy)
    (msg : ClientMessage)
    (draws : Draws) :
    Throws (lobby.processClientMessage msg c draws) ↔
      ∃ call ∈ callOf msg c draws, lobby.Exhausts call := by
  cases msg with
  | login msg => simp [processClientMessage, callOf]
  | createRoom msg =>
      simp only [processClientMessage, onCreateRoom, callOf,
        Option.mem_def, Option.some.injEq, exists_eq_left']
      split
      next hFew =>
        refine iff_of_false (not_throws_ok _) ?_
        rintro ⟨hMany, _⟩
        exact UInt8.not_le.mpr hFew hMany
      · split
        next code hPoor =>
          refine iff_of_false (not_throws_ok _) ?_
          rintro ⟨_, hRich, _⟩
          rw [hPoor] at hRich
          cases hRich
        next => exact hTidy.throws_step (.createRoom _ _ _ _)
  | joinRoom msg =>
      simp only [processClientMessage, onJoinRoom, callOf,
        Option.mem_def, Option.some.injEq, exists_eq_left']
      rw [throws_bind_of_rest fun _ _ => not_throws_ok _]
      exact hTidy.throws_joinRoom
  | leaveRoom =>
      have hRoomId :
          ∃ roomId, lobby.presentRoomId c = .ok roomId := by
        unfold presentRoomId findRoomByPlayer
        split
        · exact ⟨0, rfl⟩
        next ptr hFind =>
          rcases hTidy.room_of_find hFind with
            ⟨room, hRoom, _⟩
          exact ⟨room.id, by simp [hRoom, Except.map]⟩
      rcases hRoomId with ⟨roomId, hRoomId⟩
      simp only [processClientMessage, onLeaveRoom, callOf,
        Option.mem_def, Option.some.injEq, exists_eq_left']
      rw [hRoomId, Except.ok_bind,
        throws_bind_of_rest fun _ _ => not_throws_ok _]
      exact hTidy.throws_leaveRoom
  | listRooms =>
      have hQuiet : ¬ Throws lobby.getRoomList :=
        not_throws_of_failsOnly hTidy.getRoomList_failsOnly
      simp only [processClientMessage, onListRooms, callOf]
      rw [throws_bind_of_rest fun _ _ => not_throws_ok _]
      simp [hQuiet]
  | startGame =>
      simp only [processClientMessage, onStartGame, callOf,
        Option.mem_def, Option.some.injEq, exists_eq_left']
      rw [throws_bind_of_rest fun _ _ => not_throws_ok _]
      exact hTidy.throws_startGame
  | playerAction msg =>
      simp only [processClientMessage, onPlayerAction, callOf,
        Option.mem_def, Option.some.injEq, exists_eq_left']
      split
      next hOutside =>
        exact iff_of_false (not_throws_ok _)
          (hTidy.not_exists_held hOutside)
      next => exact hTidy.throws_playerAction

end Lobby

------------------------------------------------------------
-- Passwords
------------------------------------------------------------

namespace PasswordHasher

variable {Password : Type}
variable {pbkdf2 : KeyDerivation Password}
variable {password : Password}

/- No number stands in front, or a number too large. -/
theorem throws_stoi
    {text : List Char} :
    Throws (stoi text) ↔ ∀ value, ¬ Counts text value := by
  cases hRead : stoi text with
  | ok value =>
      have hCounts := stoi_eq_ok.mp hRead
      simp only [not_throws_ok, false_iff, not_forall,
        not_not]
      exact ⟨value, hCounts⟩
  | error exn =>
      have hReal : exn ≠ .notEnabled := by
        rintro rfl
        rw [stoi_eq] at hRead
        unfold stoiUnsigned at hRead
        split at hRead
        · cases hRead
        · dsimp only at hRead
          split at hRead
          · split at hRead
            · cases hRead
            · cases hRead
          · split at hRead
            · cases hRead
            · cases hRead
      simp only [throws_error, hReal, ne_eq,
        not_false_eq_true, true_iff]
      intro value hCounts
      rw [stoi_eq_ok.mpr hCounts] at hRead
      cases hRead

/- Checking a password throws for want of a number only. -/
theorem throws_verifyText
    {storedHash : List Char} :
    Throws (verifyText pbkdf2 password storedHash) ↔
      ∃ count saltHex hashHex,
        Fields storedHash scheme count saltHex hashHex ∧
          ∀ value, ¬ Counts count value := by
  by_cases hRecord : ∃ count saltHex hashHex,
      Fields storedHash scheme count saltHex hashHex
  · rcases hRecord with ⟨count, saltHex, hashHex, hFields⟩
    have hSame : Throws (verifyText pbkdf2 password
        storedHash) ↔ Throws (stoi count) := by
      cases hCount : stoi count with
      | error exn =>
          rw [verifyText_of_unread hFields hCount]
          simp
      | ok value =>
          have hReads : ∃ answer,
              verifyText pbkdf2 password storedHash =
                .ok answer := by
            rcases verifyText_of_fields hFields hCount with
              ⟨answer, hAnswer, _⟩
            exact ⟨answer, hAnswer⟩
          rcases hReads with ⟨answer, hAnswer⟩
          rw [hAnswer]
          simp
    rw [hSame, throws_stoi]
    constructor
    · exact fun hNone =>
        ⟨count, saltHex, hashHex, hFields, hNone⟩
    · rintro ⟨count', saltHex', hashHex', hOther, hNone⟩
      have hBoth := splitStored_eq_some.mpr hOther
      rw [splitStored_eq_some.mpr hFields] at hBoth
      cases hBoth
      exact hNone
  · rw [verifyText_of_other]
    · simp only [not_throws_ok, false_iff]
      rintro ⟨count, saltHex, hashHex, hFields, _⟩
      exact hRecord ⟨count, saltHex, hashHex, hFields⟩
    · exact fun count saltHex hashHex hFields =>
        hRecord ⟨count, saltHex, hashHex, hFields⟩

/- The derivation fails. -/
theorem throws_hashText
    {salt : List UInt8} :
    Throws (hashText pbkdf2 password salt) ↔
      pbkdf2 password salt iterations = none := by
  unfold hashText
  cases pbkdf2 password salt iterations with
  | none => simp
  | some key => simp

end PasswordHasher

namespace UserRepository

open PasswordHasher in
/-
  A new account has no salt or no key or is refused by the
  table, or the number in the stored password of an old one
  cannot be read.
-/
def Unopenable
    (users : UserRepository)
    (pbkdf2 : Pbkdf2)
    (username password : String)
    (salt : Option (List UInt8)) : Prop :=
  (users.hashOf username = none ∧
    (users.refuses = true ∨
      ∀ drawn ∈ salt,
        pbkdf2 password drawn iterations = none)) ∨
  ∃ passwordHash count saltHex hashHex,
    users.hashOf username = some passwordHash ∧
      Fields (chars passwordHash) scheme count saltHex
        hashHex ∧
      ∀ value, ¬ Counts count value

variable {users : UserRepository}
variable {pbkdf2 : Pbkdf2}
variable {username password : String}
variable {salt : Option (List UInt8)}

/- The account is there, its record cannot be read. -/
theorem throws_verifyPassword :
    Throws (users.verifyPassword pbkdf2 username password) ↔
      ∃ passwordHash count saltHex hashHex,
        users.hashOf username = some passwordHash ∧
          PasswordHasher.Fields
            (PasswordHasher.chars passwordHash)
            PasswordHasher.scheme count saltHex hashHex ∧
          ∀ value, ¬ PasswordHasher.Counts count value := by
  rw [verifyPassword_eq]
  cases users.hashOf username with
  | none => simp
  | some passwordHash =>
      simp only [Option.some.injEq, exists_and_left,
        exists_eq_left']
      exact PasswordHasher.throws_verifyText

/- Salt, key and INSERT can each fail. -/
theorem throws_createUser
    {chips : UInt32}
    (hNew : users.usernameExists username = false) :
    Throws (users.createUser pbkdf2 username password chips
        salt) ↔
      users.refuses = true ∨
        ∀ drawn ∈ salt,
          pbkdf2 password drawn PasswordHasher.iterations =
            none := by
  unfold createUser
  rw [if_neg (by simp [hNew])]
  cases salt with
  | none => simp
  | some drawn =>
      dsimp only
      rw [throws_bind]
      unfold PasswordHasher.hash
      rw [throws_map, PasswordHasher.throws_hashText]
      cases hKey : pbkdf2 password drawn
          PasswordHasher.iterations with
      | none => simp [hKey]
      | some key =>
          cases hRefuses : users.refuses with
          | true =>
              simp [PasswordHasher.hashText, hKey, Except.map]
          | false =>
              simp [PasswordHasher.hashText, hKey, Except.map]

end UserRepository

------------------------------------------------------------
-- Packets
------------------------------------------------------------

/- `nlohmann::json::parse`; its turns never run out. -/
def parser
    (strtod : Json.Strtod) : Parser := fun body =>
  match Json.parse strtod body with
  | .ok data => .value data
  | .error (.parseError _ what) => .parseError what
  | .error (.outOfRange _) => .outOfRange
  | .error .exhausted => .outOfRange

namespace Handshake

variable {parse : Parser}
variable {pbkdf2 : Pbkdf2}
variable {users : UserRepository}
variable {h : Handshake}
variable {c : ConnId}
variable {body : List UInt8}
variable {draws : Draws}
variable {salt : Option (List UInt8)}

/-
  The body has a number that no double holds, or a fault
  whose description cannot be sent, or is a value without a
  type that is a string.
-/
def Unreadable
    (parse : Parser)
    (body : List UInt8) : Prop :=
  parse body = .outOfRange ∨
  (∃ what, parse body = .parseError what ∧
    String.fromUTF8? ⟨what.toArray⟩ = none) ∨
  ∃ data, parse body = .value data ∧
    ∀ type, data.find? "type" ≠ some (.string type)

/-
  The packet is unreadable, or a login of a connection that
  is not logged in, well formed, which cannot be opened.
-/
inductive Fatal
    (parse : Parser)
    (pbkdf2 : Pbkdf2)
    (h : Handshake) : Event → Prop
  | unreadable
      {c : ConnId}
      {body : List UInt8}
      {draws : Draws}
      {salt : Option (List UInt8)}
      (hBody : Unreadable parse body) :
      Fatal parse pbkdf2 h (.message c body draws salt)
  | unopenable
      {c : ConnId}
      {body : List UInt8}
      {draws : Draws}
      {salt : Option (List UInt8)}
      {login : Login}
      {users : UserRepository}
      (hNew : c ∉ h.authenticated)
      (hLogin : loginOf parse body = some login)
      (hName : Auth.isValidUsername
        (Auth.trimCopy login.username) = true)
      (hPassword : Auth.isValidPassword login.password = true)
      (hUsers : h.lobby.world.repository = some users)
      (hFails : users.Unopenable pbkdf2
        (Auth.trimCopy login.username) login.password salt) :
      Fatal parse pbkdf2 h (.message c body draws salt)

/-
  The packet logs in a connection that is not logged in yet,
  well formed, to an account that cannot be opened.
-/
def Locked
    (parse : Parser)
    (pbkdf2 : Pbkdf2)
    (h : Handshake)
    (c : ConnId)
    (body : List UInt8)
    (salt : Option (List UInt8)) : Prop :=
  c ∉ h.authenticated ∧
    ∃ login users, loginOf parse body = some login ∧
      h.lobby.world.repository = some users ∧
      Auth.isValidUsername
        (Auth.trimCopy login.username) = true ∧
      Auth.isValidPassword login.password = true ∧
      users.Unopenable pbkdf2
        (Auth.trimCopy login.username) login.password salt

/- A message is fatal in one of two ways. -/
theorem fatal_message_iff :
    h.Fatal parse pbkdf2 (.message c body draws salt) ↔
      Unreadable parse body ∨
        h.Locked parse pbkdf2 c body salt := by
  constructor
  · intro hFatal
    cases hFatal with
    | unreadable hBody => exact Or.inl hBody
    | unopenable hNew hLogin hName hPassword hUsers hFails =>
        exact Or.inr ⟨hNew, _, _, hLogin, hUsers, hName,
          hPassword, hFails⟩
  · rintro (hBody | ⟨hNew, login, users, hLogin, hUsers,
      hName, hPassword, hFails⟩)
    · exact Fatal.unreadable hBody
    · exact Fatal.unopenable hNew hLogin hName hPassword
        hUsers hFails

/- What the body is read as, if it is well formed. -/
def messageOf
    (parse : Parser)
    (body : List UInt8) : Option ClientMessage :=
  match parse body with
  | .value data => (ClientMessage.fromJson data).toOption
  | _ => none

/-
  The packet is a request of a connection that is logged in,
  and its call runs out of cards.
-/
def Exhausts
    (parse : Parser)
    (h : Handshake)
    (c : ConnId)
    (body : List UInt8)
    (draws : Draws) : Prop :=
  c ∈ h.authenticated ∧
    ∃ msg ∈ messageOf parse body,
      ∃ call ∈ Lobby.callOf msg c draws,
        h.lobby.Exhausts call

/- The answer to a wrong password is none. -/
theorem throws_verifyLogin
    {username password : String} :
    Throws (h.verifyLogin pbkdf2 users username password c) ↔
      Throws (users.verifyPassword pbkdf2 username
        password) := by
  unfold verifyLogin
  rw [throws_bind]
  constructor
  · rintro (hThrows | ⟨answer, _, hRest⟩)
    · exact hThrows
    · cases answer with
      | true => exact absurd hRest (not_throws_ok _)
      | false => exact absurd hRest (not_throws_ok _)
  · exact Or.inl

/- A login throws when its account can not be opened. -/
theorem throws_handleLogin
    {login : Login}
    (hUsers : h.lobby.world.repository = some users) :
    Throws (h.handleLogin pbkdf2 login c salt) ↔
      Auth.isValidUsername
          (Auth.trimCopy login.username) = true ∧
        Auth.isValidPassword login.password = true ∧
        users.Unopenable pbkdf2
          (Auth.trimCopy login.username) login.password
          salt := by
  unfold handleLogin
  dsimp only
  by_cases hName : Auth.isValidUsername
      (Auth.trimCopy login.username) = true
  · rw [if_neg (by simpa using hName)]
    by_cases hPassword :
        Auth.isValidPassword login.password = true
    · rw [if_neg (by simpa using hPassword), hUsers]
      simp only [require, Except.ok_bind, hName, hPassword,
        true_and]
      have hExists := users.usernameExists_eq
        (Auth.trimCopy login.username)
      unfold UserRepository.Unopenable
      cases hHash : users.hashOf
          (Auth.trimCopy login.username) with
      | some passwordHash =>
          rw [hHash] at hExists
          rw [if_neg (by simp [hExists]), throws_verifyLogin,
            UserRepository.throws_verifyPassword, hHash]
          simp
      | none =>
          rw [hHash] at hExists
          have hNew : users.usernameExists
              (Auth.trimCopy login.username) = false :=
            hExists
          rw [if_pos (by simp [hNew]), throws_bind,
            UserRepository.throws_createUser hNew]
          have hDone : ¬ ∃ made,
              users.createUser pbkdf2
                  (Auth.trimCopy login.username)
                  login.password STARTING_CHIPS salt =
                .ok made ∧
              Throws (if made.1 = true then
                  .ok ((h.setUsers made.2).finishLogin made.2
                    (Auth.trimCopy login.username) c true)
                else
                  (h.setUsers made.2).verifyLogin pbkdf2
                    made.2 (Auth.trimCopy login.username)
                    login.password c) := by
            rintro ⟨⟨created, users'⟩, hCreate, hThrows⟩
            rw [(UserRepository.createUser_of_ok hNew
              hCreate).1, if_pos rfl] at hThrows
            exact not_throws_ok _ hThrows
          rw [or_iff_left hDone]
          simp
    · rw [if_pos (by simpa using hPassword)]
      simp [hPassword]
  · rw [if_pos (by simpa using hName)]
    simp [hName]

/- A request throws when it runs out of cards. -/
theorem throws_onRequest
    {data : Json}
    (hParse : parse body = .value data)
    (hTidy : h.lobby.Tidy) :
    Throws (h.onRequest data c draws) ↔
      h.Exhausts parse c body draws := by
  unfold onRequest Exhausts messageOf
  rw [hParse]
  dsimp only
  by_cases hThere : c ∈ h.authenticated
  · rw [if_neg (not_not.mpr hThere)]
    cases hRead : ClientMessage.fromJson data with
    | error what => simp [Except.toOption]
    | ok msg =>
        dsimp only
        rw [throws_bind_of_rest fun _ _ => not_throws_ok _,
          Lobby.throws_processClientMessage hTidy]
        simp [Except.toOption, hThere]
  · rw [if_pos hThere]
    simp [hThere]

/- A value of type `login` is read as the login it carries. -/
theorem fromJson_of_login
    {data : Json}
    (hType : data.atKey "type" >>= Json.getString =
      .ok "login") :
    ClientMessage.fromJson data =
      (data.atKey "data" >>= Login.fromJson).map .login := by
  rcases Except.bind_eq_ok.mp hType with ⟨value, hAt, hGet⟩
  unfold ClientMessage.fromJson
  rw [hAt, Except.ok_bind, hGet, Except.ok_bind]
  change (do
    .ok (.login (← Login.fromJson (← data.atKey "data")))) =
      (data.atKey "data" >>= Login.fromJson).map
        ClientMessage.login
  cases data.atKey "data" with
  | error what => rfl
  | ok inner =>
      cases Login.fromJson inner with
      | error what => rfl
      | ok login => rfl

/- A login makes no call of the lobby. -/
theorem not_exhausts_of_login
    {data : Json}
    (hParse : parse body = .value data)
    (hType : data.atKey "type" >>= Json.getString =
      .ok "login") :
    ¬ h.Exhausts parse c body draws := by
  rintro ⟨_, msg, hMsg, call, hCall, _⟩
  unfold messageOf at hMsg
  rw [hParse] at hMsg
  dsimp only at hMsg
  rw [fromJson_of_login hType] at hMsg
  cases hLogin : data.atKey "data" >>= Login.fromJson with
  | error what =>
      rw [hLogin] at hMsg
      cases hMsg
  | ok login =>
      rw [hLogin] at hMsg
      cases hMsg
      cases hCall

/- No body locks anybody out but a login. -/
theorem not_locked_of_loginOf
    (hNone : loginOf parse body = none) :
    ¬ h.Locked parse pbkdf2 c body salt := by
  rintro ⟨_, login, _, hLogin, _⟩
  rw [hNone] at hLogin
  cases hLogin

/- What is no message makes no call either. -/
theorem not_exhausts_of_messageOf
    (hNone : messageOf parse body = none) :
    ¬ h.Exhausts parse c body draws := by
  rintro ⟨_, msg, hMsg, _⟩
  rw [hNone] at hMsg
  cases hMsg

/- In small rooms no request does. -/
theorem not_exhausts_of_smallRooms
    (hTidy : h.lobby.Tidy)
    (hFitting : h.lobby.Fitting)
    (hSmall : h.lobby.SmallRooms) :
    ¬ h.Exhausts parse c body draws := by
  rintro ⟨_, msg, _, call, hCall, hExhausts⟩
  have hEach : h.lobby.Each (Room.FinishesOnly
      fun exn => exn = .notEnabled) :=
    hFitting.finishesOnly hSmall rfl
  exact not_throws_of_failsOnly
    (Lobby.processClientMessage_failsOnly hTidy hEach msg
      draws)
    ((Lobby.throws_processClientMessage hTidy msg draws).mpr
      ⟨call, hCall, hExhausts⟩)

/- All that comes before is answered with an error. -/
theorem throws_onLogin
    {data : Json}
    (hParse : parse body = .value data)
    (hType : data.atKey "type" >>= Json.getString =
      .ok "login")
    (hUsers : h.lobby.world.repository = some users) :
    Throws (h.onLogin pbkdf2 data c salt) ↔
      h.Locked parse pbkdf2 c body salt := by
  unfold Locked
  rw [loginOf_of_login hParse hType]
  unfold onLogin
  by_cases hThere : c ∈ h.authenticated
  · rw [if_pos hThere]
    simp [hThere]
  · rw [if_neg hThere]
    cases data.atKey "data" >>= Login.fromJson with
    | error what => simp [Except.toOption]
    | ok login =>
        dsimp only
        rw [throws_handleLogin hUsers]
        simp [Except.toOption, hThere, hUsers]

/- The type of a value is read when it is a string. -/
theorem typeOf_eq_ok
    {data : Json}
    {type : String} :
    data.atKey "type" >>= Json.getString = .ok type ↔
      data.find? "type" = some (.string type) := by
  rw [Except.bind_eq_ok]
  constructor
  · rintro ⟨value, hAt, hGet⟩
    rw [Json.atKey_eq_ok.mp hAt]
    cases value with
    | string text =>
        cases hGet
        rfl
    | _ => cases hGet
  · exact fun hFind =>
      ⟨.string type, Json.atKey_of_find? hFind, rfl⟩

/- What is parsed lacks at most a type. -/
theorem unreadable_iff_of_value
    {data : Json}
    (hParse : parse body = .value data) :
    Unreadable parse body ↔
      ∀ type, data.find? "type" ≠ some (.string type) := by
  unfold Unreadable
  rw [hParse]
  simp

/- A packet throws when it is fatal or deals too much. -/
theorem throws_processMessage
    (hTidy : h.lobby.Tidy)
    (hUsers : h.lobby.world.repository = some users) :
    Throws (h.processMessage parse pbkdf2 body c draws
        salt) ↔
      h.Fatal parse pbkdf2 (.message c body draws salt) ∨
        h.Exhausts parse c body draws := by
  rw [fatal_message_iff]
  unfold processMessage
  cases hParse : parse body with
  | outOfRange => simp [Unreadable, hParse]
  | parseError what =>
      have hNobody : ¬ h.Locked parse pbkdf2 c body salt :=
        not_locked_of_loginOf (by simp [loginOf, hParse])
      have hNothing : ¬ h.Exhausts parse c body draws :=
        not_exhausts_of_messageOf
          (by simp [messageOf, hParse])
      unfold sendParseError
      cases hText : String.fromUTF8? ⟨what.toArray⟩ with
      | none => simp [Unreadable, hParse, hText]
      | some text =>
          simp [Unreadable, hParse, hText, hNobody, hNothing]
  | value data =>
      rw [unreadable_iff_of_value hParse]
      dsimp only
      rw [throws_bind]
      cases hType : data.atKey "type" >>= Json.getString with
      | error what =>
          have hNone : ∀ type,
              data.find? "type" ≠ some (.string type) := by
            intro type hFind
            rw [typeOf_eq_ok.mpr hFind] at hType
            cases hType
          exact iff_of_true (Or.inl (by simp [uncaught]))
            (Or.inl (Or.inl hNone))
      | ok type =>
          have hFind := typeOf_eq_ok.mp hType
          have hSome : ¬ ∀ type,
              data.find? "type" ≠ some (.string type) :=
            fun hNone => hNone type hFind
          simp only [uncaught, not_throws_ok, false_or,
            Except.ok.injEq, exists_eq_left', hSome]
          by_cases hLogin : type = "login"
          · subst hLogin
            rw [if_pos rfl,
              or_iff_left (not_exhausts_of_login hParse hType)]
            exact throws_onLogin hParse hType hUsers
          · rw [if_neg hLogin, or_iff_right
              (not_locked_of_loginOf
                (loginOf_of_type hParse hType hLogin))]
            exact throws_onRequest hParse hTidy

------------------------------------------------------------
-- Runs
------------------------------------------------------------

/- Over any run of the server, games fit their rooms. -/
theorem Guarded.fitting_step
    {after : Handshake}
    {e : Event}
    (hGuarded : h.Guarded)
    (hFitting : h.lobby.Fitting)
    (hOk : h.step parse pbkdf2 e = .ok after) :
    after.lobby.Fitting := by
  have hSame : ∀ {lobby new : Lobby},
      lobby.Fitting → new.heap = lobby.heap →
      new.rooms = lobby.rooms → new.Fitting := by
    intro lobby new hThere hHeap hRooms ptr room hHolds
    unfold Lobby.Holds at hHolds
    rw [hHeap, hRooms] at hHolds
    exact hThere ptr room hHolds
  cases e with
  | message c body draws salt =>
      rcases processed_of_step hOk with ⟨_, hProcessed⟩
      cases hProcessed with
      | refused hNobody => exact hSame hFitting rfl rfl
      | requested hThere hProcess =>
          rcases Lobby.processClientMessage_of_ok hProcess
            with ⟨mid, hCalled, hAnswered⟩
          have hMid : mid.Fitting := by
            rcases hCalled with rfl | ⟨call, _, hCall⟩
            · exact hFitting
            · exact hFitting.step hGuarded.tidy hCall
          rcases hAnswered.told with ⟨world, _, hTold⟩
          exact hSame hMid (by rw [hTold]) (by rw [hTold])
      | opened hNew hLogin hUsers hName hPassword hOpens
          hFound =>
          have hRooms := h.finishAuthentication_sameRooms
          exact hSame hFitting (hRooms _ _ _ _ _).heap
            (hRooms _ _ _ _ _).rooms
  | disconnect c shuffles =>
      rcases onDisconnect_of_step hOk with ⟨_, hGone⟩
      rcases leaveRoom_of_onDisconnect hGone with
        ⟨mid, hRooms, _, hLeave⟩
      have hTidy := hRooms.tidy hGuarded.tidy
      exact (Lobby.departs_of_leaveRoom hTidy
        hLeave).fitting hTidy
          (hSame hFitting hRooms.heap hRooms.rooms)

/- So it is after every run. -/
theorem Run.fitting
    {trace : List (Handshake × Event)}
    (run : Run parse pbkdf2 users trace h) :
    h.lobby.Fitting := by
  have hKeep : ∀ (h : Handshake) (e : Event)
      (after : Handshake),
      h.Guarded ∧ h.lobby.Fitting →
      h.step parse pbkdf2 e = .ok after →
      after.Guarded ∧ after.lobby.Fitting :=
    fun _ _ _ hBoth hOk => ⟨hBoth.1.step hOk,
      hBoth.1.fitting_step hBoth.2 hOk⟩
  exact (Transition.Run.invariant_of_step hKeep run
    ⟨opening_guarded users, Lobby.opening_fitting _ _⟩).2

section Events

variable {trace : List (Handshake × Event)}

/- A message throws exactly when it is fatal. -/
theorem Run.throws_onMessage
    (run : Run parse pbkdf2 users trace h)
    (hHere : c ∉ h.closed)
    (hSmall : h.lobby.SmallRooms) :
    Throws (h.step parse pbkdf2
        (.message c body draws salt)) ↔
      h.Fatal parse pbkdf2 (.message c body draws salt) := by
  rcases ((opening_guarded users).extended rfl run).2.tables
    with ⟨_, stored, _, _, hUsers, _⟩
  simp only [Handshake.step]
  have hTidy := (Run.guarded run).tidy
  rw [if_neg hHere, throws_processMessage hTidy hUsers,
    or_iff_left (not_exhausts_of_smallRooms hTidy
      (Run.fitting run) hSmall)]

/- No disconnect throws. -/
theorem Run.not_throws_onDisconnect
    {shuffles : List Shuffle}
    (run : Run parse pbkdf2 users trace h)
    (hHere : c ∉ h.closed)
    (hSmall : h.lobby.SmallRooms) :
    ¬ Throws (h.step parse pbkdf2
        (.disconnect c shuffles)) := by
  have hTidy := (Run.guarded run).tidy
  have hFitting := Run.fitting run
  simp only [Handshake.step]
  rw [if_neg hHere]
  unfold onDisconnect
  dsimp only
  rw [throws_bind]
  rintro (hThrows | ⟨lobby, _, hRest⟩)
  · refine not_throws_of_failsOnly ?_ hThrows
    refine Lobby.Tidy.leaveRoom_failsOnly ?_ ?_
    · split
      · exact SameRooms.tidy hTidy ⟨rfl, rfl, rfl, rfl⟩
      · exact hTidy
    · split
      · exact hFitting.finishesOnly hSmall rfl
      · exact hFitting.finishesOnly hSmall rfl
  · exact not_throws_ok _ hRest

end Events

/-
  After any run in which no room with more than 23 seats is
  left, an event of an open connection throws exactly when
  it is fatal.
-/
theorem Run.throws_iff
    {trace : List (Handshake × Event)}
    {e : Event}
    (run : Run parse pbkdf2 users trace h)
    (hOpen : e.sender ∉ h.closed)
    (hSmall : h.lobby.SmallRooms) :
    Throws (h.step parse pbkdf2 e) ↔
      h.Fatal parse pbkdf2 e := by
  cases e with
  | message c body draws salt =>
      exact Run.throws_onMessage run hOpen hSmall
  | disconnect c shuffles =>
      refine iff_of_false ?_ (fun hFatal => by cases hFatal)
      exact Run.not_throws_onDisconnect run hOpen hSmall

/- Alice logs in, and there is no room yet. -/
theorem exists_run_firstLogin :
    ∃ trace h,
      Run (parser fun _ => none) loginPbkdf2
          { users := [] } trace h ∧
        h.authenticated = {0} ∧ h.closed = ∅ ∧
        h.lobby.rooms = [] := by
  have hPasses : Transition.passes
      (step (parser fun _ => none) loginPbkdf2)
      (opening { users := [] }) [firstLogin]
      (fun _ h => decide (h.authenticated = {0} ∧
        h.closed = ∅ ∧ h.lobby.rooms = [])) = true := by
    decide +kernel
  rcases Transition.exists_run_of_passes hPasses with
    ⟨trace, h, run, hTest⟩
  exact ⟨trace, h, run, of_decide_eq_true hTest⟩

/- Alice is online, and a byte of somebody else throws. -/
theorem strayByte_throws :
    ∃ trace h,
      Run (parser fun _ => none) loginPbkdf2
          { users := [] } trace h ∧
        h.authenticated = {0} ∧
        Throws (h.step (parser fun _ => none) loginPbkdf2
          (.message 1 [0xFF] {} none)) := by
  rcases exists_run_firstLogin with
    ⟨trace, h, run, hAlice, hNone, hEmpty⟩
  have hSmall : h.lobby.SmallRooms := by
    rintro ptr room ⟨hMem, _⟩
    rw [hEmpty] at hMem
    cases hMem
  have hBody : Unreadable (parser fun _ => none) [0xFF] := by
    have hText : (match parser (fun _ => none) [0xFF] with
        | .parseError what =>
            decide (String.fromUTF8? ⟨what.toArray⟩ = none)
        | _ => false) = true := by
      decide +kernel
    split at hText
    · rename_i what hParse
      exact Or.inr (Or.inl
        ⟨what, hParse, of_decide_eq_true hText⟩)
    · cases hText
  have hOpen : (Event.message 1 [0xFF] {} none).sender ∉
      h.closed := by
    rw [hNone]
    exact Finset.notMem_empty _
  exact ⟨trace, h, run, hAlice,
    (Run.throws_iff run hOpen hSmall).mpr
      (Fatal.unreadable hBody)⟩

end Handshake

end Server

end Poker

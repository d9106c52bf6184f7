import AsciiPoker.Server.Lobby.Credentials
import AsciiPoker.Server.Messaging.Authentication
import AsciiPoker.Server.Storage.StoredPasswords

/-
  The table of accounts over a run of the server.

  Playing changes chips and nothing else of an account.  A
  login makes at most one account, under a name that nobody
  has in any spelling.  So accounts are only ever added, and
  the password that opens one is the one it was made with.

  Main declarations:
    * `Handshake.Creates`, `Handshake.Extends`
    * `Handshake.Run.accounts`
    * `Handshake.Run.newAccount_opens`
-/

namespace Poker

namespace Server

open Protocol

------------------------------------------------------------
-- Logging In
------------------------------------------------------------

/- A request makes no account and drops none. -/
theorem Lobby.Called.credentials
    {lobby mid : Lobby}
    {player : ConnId}
    (hTidy : lobby.Tidy)
    (hCalled : lobby.Called player mid) :
    mid.world.credentials = lobby.world.credentials := by
  rcases hCalled with rfl | ⟨call, _, hOk⟩
  · rfl
  · exact Lobby.step_credentials hTidy hOk

/- A new account opens by what it was made with. -/
theorem UserRepository.Opens.verify_created
    {pbkdf2 : Pbkdf2}
    {users after : UserRepository}
    {username password : String}
    (hOpens : users.Opens pbkdf2 username password true after)
    (hFills : KeyDerivation.Fills pbkdf2) :
    ∃ salt, after.usernameExists username = true ∧
      ∀ candidate,
        after.verifyPassword pbkdf2 username candidate =
          .ok (decide
            (pbkdf2 candidate salt PasswordHasher.iterations =
              pbkdf2 password salt
                PasswordHasher.iterations)) := by
  cases hOpens with
  | @created salt _ hNew hHash =>
      refine ⟨salt, ?_, fun candidate => ?_⟩
      · rw [usernameExists, find_of_added hNew]
        rfl
      · rw [verifyPassword, find_of_added hNew]
        exact PasswordHasher.verify_of_hash hFills hHash

namespace Handshake

variable {parse : Parser}
variable {pbkdf2 : Pbkdf2}
variable {users : UserRepository}
variable {h after : Handshake}
variable {e : Event}
variable {entry : String × String}

/-
  The event is a login with a valid name, which nobody has
  in any spelling, and a valid password, and `entry` is the
  name with what the password is stored as.
-/
def Creates
    (parse : Parser)
    (pbkdf2 : Pbkdf2)
    (h : Handshake)
    (e : Event)
    (entry : String × String) : Prop :=
  e.sender ∉ h.authenticated ∧
    ∃ body ∈ e.body?, ∃ login users salt,
      loginOf parse body = some login ∧
      h.lobby.world.repository = some users ∧
      Auth.isValidUsername entry.1 = true ∧
      Auth.isValidPassword login.password = true ∧
      users.usernameExists entry.1 = false ∧
      entry.1 = Auth.trimCopy login.username ∧
      PasswordHasher.hash pbkdf2 login.password salt =
        .ok entry.2

/- An event leaves the table, or makes one account. -/
theorem credentials_of_step
    (hGuarded : h.Guarded)
    (hOk : h.step parse pbkdf2 e = .ok after) :
    after.lobby.world.credentials =
        h.lobby.world.credentials ∨
      ∃ entry, h.Creates parse pbkdf2 e entry ∧
        after.lobby.world.credentials =
          h.lobby.world.credentials.map fun credentials =>
            credentials ++ [entry] := by
  cases e with
  | message c body draws salt =>
      rcases processed_of_step hOk with ⟨_, hProcessed⟩
      cases hProcessed with
      | refused hNobody => exact Or.inl rfl
      | requested hThere hProcess =>
          rcases Lobby.processClientMessage_of_ok hProcess
            with ⟨mid, hCalled, hAnswered⟩
          exact Or.inl (hAnswered.told.credentials.trans
            (hCalled.credentials hGuarded.tidy))
      | @opened login found found' user isNewAccount hNew
          hLogin hUsers hName hPassword hOpens hFind =>
          unfold World.credentials
          rw [finishAuthentication_repository, hUsers]
          cases hOpens with
          | @created drawn passwordHash hFree hHash =>
              refine Or.inr ⟨(Auth.trimCopy login.username,
                passwordHash), ⟨hNew, body, rfl, login, found,
                drawn, hLogin, hUsers, hName, hPassword, hFree,
                rfl, hHash⟩, ?_⟩
              simp [UserRepository.credentials]
          | verified hExists hVerify => exact Or.inl rfl
  | disconnect c shuffles =>
      rcases onDisconnect_of_step hOk with ⟨_, hGone⟩
      rcases leaveRoom_of_onDisconnect hGone with
        ⟨mid, hSame, hWorld, hLeave⟩
      have hDeparts := Lobby.departs_of_leaveRoom
        (hSame.tidy hGuarded.tidy) hLeave
      rw [hDeparts.credentials (hSame.tidy hGuarded.tidy),
        hWorld]
      exact Or.inl rfl

------------------------------------------------------------
-- Runs
------------------------------------------------------------

/-
  The table of `after` is that of `h` and, behind it, the
  accounts that logins in `later` made.
-/
structure Extends
    (parse : Parser)
    (pbkdf2 : Pbkdf2)
    (h : Handshake)
    (later : List (Handshake × Event))
    (after : Handshake) : Prop where
  tables : ∃ before users made,
    h.lobby.world.repository = some before ∧
      after.lobby.world.repository = some users ∧
      users.credentials = before.credentials ++ made ∧
      (before.Distinct → users.Distinct) ∧
      ∀ entry ∈ made, ∃ x ∈ later,
        x.1.Creates parse pbkdf2 x.2 entry

theorem Extends.snoc
    {d : Handshake}
    {later : List (Handshake × Event)}
    (hExtends : h.Extends parse pbkdf2 later d)
    (hGuarded : d.Guarded)
    (hOk : d.step parse pbkdf2 e = .ok after) :
    h.Extends parse pbkdf2 (later ++ [(d, e)]) after := by
  rcases hExtends.tables with
    ⟨before, users, made, hBefore, hUsers, hMade, hDistinct,
      hAll⟩
  have hEarlier : ∀ entry ∈ made,
      ∃ x ∈ later ++ [(d, e)],
        x.1.Creates parse pbkdf2 x.2 entry := by
    intro entry hEntry
    rcases hAll entry hEntry with ⟨x, hx, hCreates⟩
    exact ⟨x, List.mem_append_left _ hx, hCreates⟩
  have hTable := credentials_of_step hGuarded hOk
  have hHere : d.lobby.world.credentials =
      some users.credentials := by
    unfold World.credentials
    rw [hUsers]
    rfl
  rw [hHere] at hTable
  have hRead : ∀ credentials,
      after.lobby.world.credentials = some credentials →
      ∃ last, after.lobby.world.repository = some last ∧
        last.credentials = credentials :=
    fun credentials hSome => Option.map_eq_some_iff.mp hSome
  rcases hTable with hSame | ⟨entry, hCreates, hAdded⟩
  · rcases hRead _ hSame with ⟨last, hLast, hEq⟩
    refine ⟨before, last, made, hBefore, hLast,
      hEq.trans hMade, fun hFirst => ?_, hEarlier⟩
    rw [UserRepository.distinct_iff, hEq,
      ← UserRepository.distinct_iff]
    exact hDistinct hFirst
  · rcases hRead _ hAdded with ⟨last, hLast, hEq⟩
    refine ⟨before, last, made ++ [entry], hBefore, hLast, ?_,
      fun hFirst => ?_, ?_⟩
    · rw [hEq]
      dsimp only
      rw [hMade, List.append_assoc]
    · -- Nobody had the name of the new account.
      have hNew : users.usernameExists entry.1 = false := by
        rcases hCreates with
          ⟨_, _, _, _, found, _, _, hFound, _, _, hFree, _⟩
        rw [hUsers] at hFound
        cases hFound
        exact hFree
      rw [UserRepository.usernameExists_eq,
        UserRepository.hashOf_eq, Option.isSome_map,
        Option.isSome_eq_false_iff, Option.isNone_iff_eq_none,
        List.find?_eq_none] at hNew
      have hThere := hDistinct hFirst
      rw [UserRepository.distinct_iff] at hThere ⊢
      rw [hEq, List.map_append]
      refine hThere.append (List.nodup_singleton _) ?_
      intro name hName hLater
      rcases List.mem_map.mp hName with ⟨other, hOther, rfl⟩
      rw [List.map_singleton, List.mem_singleton] at hLater
      exact hNew other hOther (decide_eq_true hLater)
    · intro other hOther
      rcases List.mem_append.mp hOther with hOld | hLater
      · exact hEarlier other hOld
      · rw [List.mem_singleton.mp hLater]
        exact ⟨(d, e), by simp, hCreates⟩

/- A run extends the table it goes on from. -/
theorem Guarded.extended
    {later : List (Handshake × Event)}
    {before : UserRepository}
    (hGuarded : h.Guarded)
    (hBefore : h.lobby.world.repository = some before)
    (rest : Transition.Run (Handshake.step parse pbkdf2) h
      later after) :
    after.Guarded ∧ h.Extends parse pbkdf2 later after := by
  induction rest with
  | nil =>
      exact ⟨hGuarded, before, before, [], hBefore, hBefore,
        by simp, id, by simp⟩
  | snoc rest hOk ih =>
      exact ⟨ih.1.step hOk, ih.2.snoc ih.1 hOk⟩

/- An account that is there keeps its passwords. -/
theorem Extends.verifyPassword_eq
    {later : List (Handshake × Event)}
    {before last : UserRepository}
    {username : String}
    (hExtends : h.Extends parse pbkdf2 later after)
    (hBefore : h.lobby.world.repository = some before)
    (hLast : after.lobby.world.repository = some last)
    (hExists : before.usernameExists username = true)
    (password : String) :
    last.verifyPassword pbkdf2 username password =
      before.verifyPassword pbkdf2 username password := by
  rcases hExtends.tables with
    ⟨there, found, made, hThere, hFound, hMade, _⟩
  rw [hBefore] at hThere
  rw [hLast] at hFound
  cases hThere
  cases hFound
  rw [UserRepository.verifyPassword_eq,
    UserRepository.verifyPassword_eq,
    UserRepository.hashOf_of_prefix hMade hExists]

/-
  Over any run the table only grows: each account is kept
  under its name and with its password, those that are new
  were made by logins, and no name is given twice.  So an
  account that is there is opened later by the passwords
  that open it now and by no others.
-/
theorem Run.accounts
    {trace later : List (Handshake × Event)}
    (run : Run parse pbkdf2 users trace h)
    (rest : Transition.Run (step parse pbkdf2) h later
      after) :
    h.Extends parse pbkdf2 later after ∧
      ∀ before ∈ h.lobby.world.repository,
        ∀ last ∈ after.lobby.world.repository,
          (users.Distinct → last.Distinct) ∧
          ∀ username password,
            before.usernameExists username = true →
              last.verifyPassword pbkdf2 username password =
                before.verifyPassword pbkdf2 username
                  password := by
  rcases (opening_guarded users).extended rfl run with
    ⟨hGuarded, hFirst⟩
  rcases hFirst.tables with
    ⟨first, before, _, hOpening, hBefore, _, hHere, _⟩
  cases hOpening
  have hExtends := (hGuarded.extended hBefore rest).2
  refine ⟨hExtends, fun other hOther last hLast => ?_⟩
  rcases hExtends.tables with
    ⟨there, found, made, hThere, hFound, _, hDistinct, _⟩
  rw [Option.mem_def] at hOther hLast
  rw [hBefore] at hOther hThere
  rw [hFound] at hLast
  cases hOther
  cases hThere
  cases hLast
  exact ⟨fun hUsers => hDistinct (hHere hUsers),
    fun _ password hExists => hExtends.verifyPassword_eq
      hBefore hFound hExists password⟩

/-
  The account that a login has just made is opened, however
  long after, by the passwords that have the same key under
  its salt.
-/
theorem Run.newAccount_opens
    {trace later : List (Handshake × Event)}
    {old before last : UserRepository}
    {username password : String}
    (run : Run parse pbkdf2 users trace h)
    (hFills : KeyDerivation.Fills pbkdf2)
    (hOpens : old.Opens pbkdf2 username password true before)
    (hBefore : h.lobby.world.repository = some before)
    (rest : Transition.Run (step parse pbkdf2) h later after)
    (hLast : after.lobby.world.repository = some last) :
    ∃ salt, ∀ candidate,
      last.verifyPassword pbkdf2 username candidate =
        .ok (decide
          (pbkdf2 candidate salt PasswordHasher.iterations =
            pbkdf2 password salt
              PasswordHasher.iterations)) := by
  have hGuarded :=
    ((opening_guarded users).extended rfl run).1
  have hExtends := (hGuarded.extended hBefore rest).2
  rcases hOpens.verify_created hFills with
    ⟨salt, hExists, hVerify⟩
  refine ⟨salt, fun candidate => ?_⟩
  rw [hExtends.verifyPassword_eq hBefore hLast hExists]
  exact hVerify candidate

/- A login as Alice with the salt that a new account draws. -/
def firstLogin : Event :=
  .message 0 (loginBody "Alice") {}
    (PasswordHasher.fromHex salt.toList)

/-
  Alice makes her account and leaves, and her password opens
  it when she comes back under another spelling.
-/
theorem aliceReturns_accounts :
    ∃ trace h later after before last,
      Run loginParser loginPbkdf2 { users := [] } trace h ∧
        h.Extends loginParser loginPbkdf2 later after ∧
        h.lobby.world.repository = some before ∧
        after.lobby.world.repository = some last ∧
        last.Distinct ∧ before.users.length = 1 ∧
        after.authenticated = {0, 1} ∧
        ∀ password,
          last.verifyPassword loginPbkdf2 "alice" password =
            before.verifyPassword loginPbkdf2 "alice"
              password := by
  have hPasses : Transition.passes
      (step loginParser loginPbkdf2) (opening { users := [] })
      [firstLogin]
      (fun _ h => Transition.passes
        (step loginParser loginPbkdf2) h
        [.disconnect 0 [], login 1 "alice"]
        (fun _ after =>
          (h.lobby.world.repository.any fun before =>
            decide (before.users.length = 1 ∧
              before.usernameExists "alice" = true)) &&
          after.lobby.world.repository.isSome &&
          decide (after.authenticated = {0, 1}))) = true := by
    decide +kernel
  rcases Transition.exists_run_of_passes hPasses with
    ⟨trace, h, run, hAfter⟩
  rcases Transition.exists_run_of_passes hAfter with
    ⟨later, after, rest, hTest⟩
  rw [Bool.and_eq_true, Bool.and_eq_true,
    decide_eq_true_eq, Option.any_eq_true,
    Option.isSome_iff_exists] at hTest
  rcases hTest with
    ⟨⟨⟨before, hBefore, hFacts⟩, last, hLast⟩, hThere⟩
  rcases of_decide_eq_true hFacts with ⟨hOne, hExists⟩
  rcases Run.accounts run rest with ⟨hExtends, hAll⟩
  rcases hAll before hBefore last hLast with
    ⟨hDistinct, hVerify⟩
  exact ⟨trace, h, later, after, before, last, run, hExtends,
    hBefore, hLast, hDistinct (by decide), hOne, hThere,
    fun password => hVerify "alice" password hExists⟩

end Handshake

end Server

end Poker

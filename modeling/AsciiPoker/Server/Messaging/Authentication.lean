import AsciiPoker.Server.Messaging.Requests

/-
  How a connection gets authenticated, and what it can do
  before that.

  Main declarations:
    * `Handshake.Authenticates`
    * `Handshake.Event.sender`, `Handshake.Aside`
    * `Handshake.Run.authentication`
-/

namespace Poker

namespace Server

open Protocol

namespace Handshake

variable {parse : Parser}
variable {pbkdf2 : Pbkdf2}
variable {users : UserRepository}
variable {h after : Handshake}
variable {c : ConnId}
variable {body : List UInt8}
variable {e : Event}

------------------------------------------------------------
-- Becoming Authenticated
------------------------------------------------------------

/-
  The body is a login with a well-formed user name and
  password.  It opens an account, which is stored, and the
  connection is told the chips of that account.
-/
def Authenticates
    (parse : Parser)
    (pbkdf2 : Pbkdf2)
    (h : Handshake)
    (c : ConnId)
    (body : List UInt8)
    (after : Handshake) : Prop :=
  ∃ login users users' user isNewAccount,
    loginOf parse body = some login ∧
    Auth.isValidUsername (Auth.trimCopy login.username) =
      true ∧
    Auth.isValidPassword login.password = true ∧
    h.lobby.world.repository = some users ∧
    users.Opens pbkdf2 (Auth.trimCopy login.username)
      login.password isNewAccount users' ∧
    after.lobby.world.repository = some users' ∧
    users'.findByUsername (Auth.trimCopy login.username) =
      some user ∧
    after.lobby.world.outbox = h.lobby.world.outbox ++
      [(c, .welcome ⟨Auth.trimCopy login.username,
        user.chips, isNewAccount⟩)]

/- Nothing else authenticates a connection. -/
theorem authenticates_of_step
    (hOk : h.step parse pbkdf2 e = .ok after)
    (hNew : c ∉ h.authenticated)
    (hThere : c ∈ after.authenticated) :
    ∃ body draws salt, e = .message c body draws salt ∧
      h.Authenticates parse pbkdf2 c body after := by
  cases e with
  | message d body draws salt =>
      rcases processed_of_step hOk with ⟨_, hProcessed⟩
      cases hProcessed with
      | refused hNobody => exact absurd hThere hNew
      | requested hFirst hProcess => exact absurd hThere hNew
      | @opened login found found' user isNewAccount hFirst
          hLogin hUsers hName hPassword hOpens hFind =>
          by_cases hTaken : Auth.trimCopy login.username ∈
              (h.setUsers found').nameRegistry
          · rw [finishAuthentication_of_taken hTaken] at hThere
            exact absurd hThere hNew
          · rw [finishAuthentication_of_free hTaken] at hThere ⊢
            have hSelf : c = d :=
              (Finset.mem_insert.mp hThere).resolve_right hNew
            subst hSelf
            exact ⟨body, draws, salt, rfl, login, found,
              found', user, isNewAccount, hLogin, hName,
              hPassword, hUsers, hOpens, rfl, hFind, rfl⟩
  | disconnect d shuffles =>
      rcases onDisconnect_of_step hOk with ⟨_, hGone⟩
      rcases onDisconnect_of_ok hGone with
        ⟨_, hAuthenticated, _, _⟩
      rw [hAuthenticated] at hThere
      exact absurd hThere hNew

------------------------------------------------------------
-- Before That
------------------------------------------------------------

/- The connection an event comes from. -/
def Event.sender : Event → ConnId
| .message connection _ _ _ => connection
| .disconnect connection _ => connection

/- The body of a packet. -/
def Event.body? : Event → Option (List UInt8)
| .message _ body _ _ => some body
| .disconnect _ _ => none

/-
  The lobby and its rooms are as they were, and so are the
  stored accounts, but a login may have made its account.
-/
structure Aside
    (parse : Parser)
    (pbkdf2 : Pbkdf2)
    (h : Handshake)
    (e : Event)
    (after : Handshake) : Prop where
  rooms : h.SameRooms after
  accounts :
    after.lobby.world.repository =
        h.lobby.world.repository ∨
      ∃ body ∈ e.body?, ∃ login users users',
        loginOf parse body = some login ∧
        h.lobby.world.repository = some users ∧
        users.Opens pbkdf2 (Auth.trimCopy login.username)
          login.password true users' ∧
        after.lobby.world.repository = some users'

/- A login stores the table with the account it opened. -/
theorem finishAuthentication_repository
    (h : Handshake)
    (users : UserRepository)
    (username : String)
    (c : ConnId)
    (chips : UInt32)
    (isNewAccount : Bool) :
    ((h.setUsers users).finishAuthentication username c chips
      isNewAccount).lobby.world.repository = some users := by
  by_cases hTaken : username ∈ (h.setUsers users).nameRegistry
  · rw [finishAuthentication_of_taken hTaken]
    rfl
  · rw [finishAuthentication_of_free hTaken]
    rfl

/- Whoever is not authenticated stands aside. -/
theorem aside_of_step
    (hGuarded : h.Guarded)
    (hOk : h.step parse pbkdf2 e = .ok after)
    (hNew : e.sender ∉ h.authenticated) :
    h.Aside parse pbkdf2 e after := by
  cases e with
  | message c body draws salt =>
      rcases processed_of_step hOk with ⟨_, hProcessed⟩
      cases hProcessed with
      | refused hNobody =>
          exact ⟨⟨rfl, rfl, rfl, rfl⟩, Or.inl rfl⟩
      | requested hThere hProcess => exact absurd hThere hNew
      | @opened login found found' user isNewAccount hFirst
          hLogin hUsers hName hPassword hOpens hFind =>
          refine ⟨h.finishAuthentication_sameRooms .., ?_⟩
          rw [finishAuthentication_repository, hUsers]
          cases isNewAccount with
          | true =>
              exact Or.inr ⟨body, rfl, login, found, found',
                hLogin, rfl, hOpens, rfl⟩
          | false =>
              cases hOpens with
              | verified hExists hVerify => exact Or.inl rfl
  | disconnect c shuffles =>
      rcases onDisconnect_of_step hOk with ⟨_, hGone⟩
      rcases leaveRoom_of_onDisconnect hGone with
        ⟨mid, hSame, hWorld, hLeave⟩
      have hFree : mid.lobby.playerRooms.find c = none := by
        rw [hSame.playerRooms]
        cases hFind : h.lobby.playerRooms.find c with
        | none => rfl
        | some ptr =>
            exact absurd (hGuarded.online c ptr hFind).1 hNew
      unfold Lobby.leaveRoom at hLeave
      rw [hFree] at hLeave
      have hLobby : mid.lobby = after.lobby :=
        Except.ok.inj hLeave
      refine ⟨?_, Or.inl ?_⟩
      · rcases hSame with ⟨hHeap, hRooms, hPlayers, hNext⟩
        rw [hLobby] at hHeap hRooms hPlayers hNext
        exact ⟨hHeap, hRooms, hPlayers, hNext⟩
      · rw [← hLobby, hWorld]

------------------------------------------------------------
-- Runs
------------------------------------------------------------

variable {trace : List (Handshake × Event)}

/- Whoever is authenticated has logged in. -/
theorem Run.loggedIn
    (run : Run parse pbkdf2 users trace h) :
    ∀ c ∈ h.authenticated, ∃ p ∈ trace,
      ∃ body draws salt next,
        p.2 = .message c body draws salt ∧
        p.1.step parse pbkdf2 p.2 = .ok next ∧
        p.1.Authenticates parse pbkdf2 c body next := by
  unfold Run at run
  induction run with
  | nil => simp [opening]
  | @snoc prior t u e hPrior hStep ih =>
      intro c hThere
      by_cases hBefore : c ∈ t.authenticated
      · rcases ih c hBefore with ⟨p, hMem, hLogin⟩
        exact ⟨p, List.mem_append_left _ hMem, hLogin⟩
      · rcases authenticates_of_step hStep hBefore hThere with
          ⟨body, draws, salt, rfl, hLogin⟩
        exact ⟨(t, _), by simp, body, draws, salt, u, rfl,
          hStep, hLogin⟩

/-
  Whoever is authenticated became so by a login that opened
  an account with its password; and an event of a connection
  that is not authenticated leaves the lobby, its rooms and
  every stored account as they were, but for the account
  that its login makes.
-/
theorem Run.authentication
    (run : Run parse pbkdf2 users trace h) :
    (∀ c ∈ h.authenticated, ∃ p ∈ trace,
        ∃ body draws salt next,
          p.2 = .message c body draws salt ∧
          p.1.step parse pbkdf2 p.2 = .ok next ∧
          p.1.Authenticates parse pbkdf2 c body next) ∧
      ∀ e after, h.step parse pbkdf2 e = .ok after →
        (∀ c ∈ after.authenticated, c ∉ h.authenticated →
          ∃ body draws salt, e = .message c body draws salt ∧
            h.Authenticates parse pbkdf2 c body after) ∧
        (e.sender ∉ h.authenticated →
          h.Aside parse pbkdf2 e after) := by
  refine ⟨Run.loggedIn run, fun e after hOk => ⟨?_, ?_⟩⟩
  · intro c hThere hNew
    exact authenticates_of_step hOk hNew hThere
  · exact aside_of_step (Run.guarded run) hOk

/- Alice logs in, and the next login as `Alice` does not. -/
theorem aliceOnline_authentication :
    ∃ trace h,
      Run loginParser loginPbkdf2 aliceUsers trace h ∧
        trace.length = 2 ∧ h.authenticated = {0} ∧
        ∃ p ∈ trace, ∃ body draws salt next,
          p.2 = .message 0 body draws salt ∧
          p.1.Authenticates loginParser loginPbkdf2 0 body
            next := by
  have hPasses : Transition.passes
      (step loginParser loginPbkdf2) (opening aliceUsers)
      [login 0 "Alice", login 1 "Alice"]
      (fun trace h =>
        decide (trace.length = 2 ∧ h.authenticated = {0})) =
        true := by
    decide +kernel
  rcases Transition.exists_run_of_passes hPasses with
    ⟨trace, h, run, hTest⟩
  rcases of_decide_eq_true hTest with ⟨hLength, hOnly⟩
  have hThere : 0 ∈ h.authenticated := by
    rw [hOnly]
    exact Finset.mem_singleton_self 0
  rcases (Run.authentication run).1 0 hThere with
    ⟨p, hMem, body, draws, salt, next, hEvent, _, hLogin⟩
  exact ⟨trace, h, run, hLength, hOnly, p, hMem, body, draws,
    salt, next, hEvent, hLogin⟩

end Handshake

end Server

end Poker

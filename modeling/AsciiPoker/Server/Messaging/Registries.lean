import AsciiPoker.Server.Messaging.Online

/-
  The two registries of those who are online.

  `PlayerNameRegistry` holds their names and
  `ConnectionRegistry` their connections.  An event that
  brings nobody online and takes nobody off touches neither,
  and the name of a player who has gone is free for the next
  login to his account.

  Main declarations:
    * `Handshake.Listed`, `Handshake.Listed.step`
    * `Handshake.Event.Fruitless`
    * `Handshake.Run.registries`
-/

namespace Poker

namespace Server

open Protocol

namespace Handshake

variable {parse : Parser}
variable {pbkdf2 : Pbkdf2}
variable {users : UserRepository}
variable {h after : Handshake}
variable {c : ConnId}
variable {username : String}
variable {e : Event}

------------------------------------------------------------
-- The Connection Registry
------------------------------------------------------------

/- The registry holds the connections that are online. -/
def Listed
    (h : Handshake) : Prop :=
  ∃ connections,
    h.lobby.connectionRegistry = some connections ∧
      connections.Nodup ∧
      ∀ c, c ∈ connections ↔ h.Online c

theorem opening_listed
    (users : UserRepository) :
    (opening users).Listed :=
  ⟨[], rfl, List.nodup_nil, by simp [opening, Online]⟩

/- Neither registry is touched, and nobody's name is. -/
structure Untouched
    (h after : Handshake) : Prop where
  nameRegistry : after.nameRegistry = h.nameRegistry
  connectionRegistry : after.lobby.connectionRegistry =
    h.lobby.connectionRegistry
  names : after.lobby.world.names = h.lobby.world.names

/- A name that is taken leaves everything as it is. -/
theorem finishAuthentication_of_taken
    {chips : UInt32}
    {isNewAccount : Bool}
    (hTaken : username ∈ h.nameRegistry) :
    h.finishAuthentication username c chips isNewAccount =
      h.sendError c .alreadyOnline "" := by
  unfold finishAuthentication
  exact if_pos hTaken

/- A name that is free is registered with its connection. -/
theorem finishAuthentication_of_free
    {chips : UInt32}
    {isNewAccount : Bool}
    (hFree : username ∉ h.nameRegistry) :
    h.finishAuthentication username c chips isNewAccount =
      { ((({ h with
            nameRegistry := insert username h.nameRegistry
          } : Handshake).setPlayerName c
            username).addConnection c) with
        lobby := ((({ h with
            nameRegistry := insert username h.nameRegistry
          } : Handshake).setPlayerName c
            username).addConnection c).lobby.send c
              (.welcome ⟨username, chips, isNewAccount⟩) } := by
  unfold finishAuthentication
  exact if_neg hFree

/- What is said of the registry by those it has to hold. -/
theorem Listed.of_online
    (hListed : h.Listed)
    (hRegistry : after.lobby.connectionRegistry =
      h.lobby.connectionRegistry)
    (hOnline : ∀ d, after.Online d ↔ h.Online d) :
    after.Listed := by
  rcases hListed with ⟨connections, hSome, hNodup, hMem⟩
  refine ⟨connections, hRegistry.trans hSome, hNodup, ?_⟩
  intro d
  rw [hMem, hOnline]

/- A connection that is added comes online. -/
theorem Listed.insert
    (hListed : h.Listed)
    (hRegistry : after.lobby.connectionRegistry =
      h.lobby.connectionRegistry.map fun connections =>
        connections.insert c)
    (hOnline : ∀ d, after.Online d ↔ d = c ∨ h.Online d) :
    after.Listed := by
  rcases hListed with ⟨connections, hSome, hNodup, hMem⟩
  rw [hSome] at hRegistry
  refine ⟨connections.insert c, hRegistry, hNodup.insert, ?_⟩
  intro d
  rw [List.mem_insert_iff, hMem, hOnline]

/- A connection that is removed goes offline. -/
theorem Listed.erase
    (hListed : h.Listed)
    (hRegistry : after.lobby.connectionRegistry =
      h.lobby.connectionRegistry.map fun connections =>
        connections.erase c)
    (hOnline : ∀ d, after.Online d ↔ d ≠ c ∧ h.Online d) :
    after.Listed := by
  rcases hListed with ⟨connections, hSome, hNodup, hMem⟩
  rw [hSome] at hRegistry
  refine ⟨connections.erase c, hRegistry, hNodup.erase c, ?_⟩
  intro d
  rw [hNodup.mem_erase_iff, hMem, hOnline]

/- What a disconnect does to the connection registry. -/
theorem onDisconnect_registry
    {shuffles : List Shuffle}
    (hOk : h.onDisconnect c shuffles = .ok after) :
    after.lobby.connectionRegistry =
      if c ∈ h.authenticated then
        h.lobby.connectionRegistry.map fun connections =>
          connections.erase c
      else
        h.lobby.connectionRegistry := by
  unfold onDisconnect at hOk
  rcases Except.bind_eq_ok.mp hOk with ⟨lobby, hLeave, hEnd⟩
  cases hEnd
  have hKeeps := (Lobby.leaveRoom_keeps hLeave).registry
  by_cases hThere : c ∈ h.authenticated
  · simp only [hThere, if_true] at hKeeps ⊢
    exact hKeeps
  · simp only [hThere, if_false] at hKeeps ⊢
    exact hKeeps

------------------------------------------------------------
-- One Event
------------------------------------------------------------

/- A packet of a connection that is not closed. -/
theorem processed_of_step
    {body : List UInt8}
    {draws : Draws}
    {salt : Option (List UInt8)}
    (hOk : h.step parse pbkdf2 (.message c body draws salt) =
      .ok after) :
    c ∉ h.closed ∧ h.Processed parse pbkdf2 c body after := by
  simp only [Handshake.step] at hOk
  split at hOk
  · cases hOk
  · rename_i hOpen
    exact ⟨hOpen, processed_of_ok hOk⟩

/- The end of a connection that is not closed. -/
theorem onDisconnect_of_step
    {shuffles : List Shuffle}
    (hOk : h.step parse pbkdf2 (.disconnect c shuffles) =
      .ok after) :
    c ∉ h.closed ∧ h.onDisconnect c shuffles = .ok after := by
  simp only [Handshake.step] at hOk
  split at hOk
  · cases hOk
  · rename_i hOpen
    exact ⟨hOpen, hOk⟩

/- Every event keeps the connection registry exact. -/
theorem Listed.step
    (hReg : h.Registered)
    (hListed : h.Listed)
    (hOk : h.step parse pbkdf2 e = .ok after) :
    after.Listed := by
  cases e with
  | message c body draws salt =>
      rcases processed_of_step hOk with ⟨hOpen, hProcessed⟩
      cases hProcessed with
      | refused hNobody =>
          exact hListed.of_online rfl fun _ => Iff.rfl
      | requested hThere hProcess =>
          exact hListed.of_online
            (Lobby.processClientMessage_keeps hProcess).registry
            fun _ => Iff.rfl
      | @opened login found found' user isNewAccount hNew
          hLogin hUsers hName hPassword hOpens hFind =>
          rcases finishAuthentication_outcome (c := c) hUsers
              hOpens hFind with
            ⟨hTaken, hQuiet⟩ | hEnters
          · have hThere : Auth.trimCopy login.username ∈
                (h.setUsers found').nameRegistry := hTaken
            apply hListed.of_online _ hQuiet.online_iff
            rw [finishAuthentication_of_taken hThere]
            rfl
          · have hFree : Auth.trimCopy login.username ∉
                (h.setUsers found').nameRegistry :=
              hEnters.fresh
            apply hListed.insert _ (hEnters.online_iff hOpen)
            rw [finishAuthentication_of_free hFree]
            rfl
  | disconnect c shuffles =>
      rcases onDisconnect_of_step hOk with ⟨hOpen, hGone⟩
      have hRegistry := onDisconnect_registry hGone
      have hOnline := (hReg.leaves hOpen hGone).2.1
      by_cases hThere : c ∈ h.authenticated
      · rw [if_pos hThere] at hRegistry
        exact hListed.erase hRegistry hOnline
      · rw [if_neg hThere] at hRegistry
        refine hListed.of_online hRegistry fun d => ?_
        rw [hOnline, and_iff_right_iff_imp]
        exact ne_of_online hThere

/- The event brings nobody online and takes nobody off. -/
def Event.Fruitless
    (h after : Handshake) : Event → Prop
| .message _ _ _ _ => after.authenticated = h.authenticated
| .disconnect c _ => c ∉ h.authenticated

/- Such an event frees no name and takes none. -/
theorem untouched_of_fruitless
    (hOk : h.step parse pbkdf2 e = .ok after)
    (hFruitless : e.Fruitless h after) :
    h.Untouched after := by
  cases e with
  | message c body draws salt =>
      rcases processed_of_step hOk with ⟨_, hProcessed⟩
      cases hProcessed with
      | refused hNobody => exact ⟨rfl, rfl, rfl⟩
      | requested hThere hProcess =>
          have hKeeps :=
            Lobby.processClientMessage_keeps hProcess
          exact ⟨rfl, hKeeps.registry, hKeeps.world.names⟩
      | @opened login found found' user isNewAccount hNew
          hLogin hUsers hName hPassword hOpens hFind =>
          by_cases hTaken : Auth.trimCopy login.username ∈
              (h.setUsers found').nameRegistry
          · rw [finishAuthentication_of_taken hTaken]
            exact ⟨rfl, rfl, rfl⟩
          · have hSame : _ = h.authenticated := hFruitless
            rw [finishAuthentication_of_free hTaken] at hSame
            have hIn : c ∈ insert c h.authenticated :=
              Finset.mem_insert_self c h.authenticated
            exact absurd (hSame ▸ hIn) hNew
  | disconnect c shuffles =>
      rcases onDisconnect_of_step hOk with ⟨_, hGone⟩
      have hRegistry := onDisconnect_registry hGone
      rcases onDisconnect_of_ok hGone with
        ⟨hNames, _, _, hKeeps⟩
      rw [if_neg hFruitless] at hRegistry hNames
      exact ⟨hNames, hRegistry, hKeeps.names⟩

/- Whoever is online and goes leaves his name behind. -/
theorem Registered.frees
    {shuffles : List Shuffle}
    (hReg : h.Registered)
    (hOnline : h.Online c)
    (hOk : h.step parse pbkdf2 (.disconnect c shuffles) =
      .ok after) :
    h.name c ∉ after.nameRegistry := by
  rcases onDisconnect_of_step hOk with ⟨hOpen, hGone⟩
  rcases hReg.leaves hOpen hGone with ⟨hAfter, hLeft, hName⟩
  rw [hAfter.registered]
  rintro ⟨d, hd, hSame⟩
  rw [hName] at hSame
  have hOther := (hLeft d).mp hd
  exact hOther.1 (hReg.distinct d c hOther.2 hOnline hSame)

------------------------------------------------------------
-- A Name That Is Free
------------------------------------------------------------

/- The table knows the name of an account. -/
theorem usernameExists_of_stores
    (hUsers : h.lobby.world.repository = some users)
    (hStores : h.lobby.world.Stores username) :
    users.usernameExists username = true := by
  rcases hStores with ⟨found, hFound, user, hUser, hMatches⟩
  rw [hUsers] at hFound
  cases hFound
  unfold UserRepository.usernameExists
    UserRepository.findByUsername
  rw [List.find?_isSome]
  exact ⟨user, hUser, by simpa using hMatches⟩

/- A login to an account that is there is carried out. -/
theorem handleLogin_of_stored
    {login : Login}
    {salt : Option (List UInt8)}
    (hAccepts : h.Accepts pbkdf2 login)
    (hStores : h.lobby.world.Stores
      (Auth.trimCopy login.username)) :
    ∃ after, h.handleLogin pbkdf2 login c salt = .ok after := by
  rcases hAccepts with
    ⟨hName, hPassword, users, hUsers, hVerify⟩
  have hExists := usernameExists_of_stores hUsers hStores
  unfold handleLogin
  dsimp only
  rw [if_neg (by simpa using hName),
    if_neg (by simpa using hPassword),
    require_eq_ok.mpr hUsers, Except.ok_bind,
    if_neg (by simpa using hExists)]
  unfold verifyLogin
  rw [hVerify hExists]
  exact ⟨_, rfl⟩

/- The body of a packet that carries a login. -/
theorem processMessage_of_loginOf
    {login : Login}
    {body : List UInt8}
    {draws : Draws}
    {salt : Option (List UInt8)}
    (hNew : c ∉ h.authenticated)
    (hLogin : loginOf parse body = some login) :
    h.processMessage parse pbkdf2 body c draws salt =
      h.handleLogin pbkdf2 login c salt := by
  unfold loginOf at hLogin
  split at hLogin
  · rename_i data hParse
    split at hLogin
    · rename_i type hType
      split at hLogin
      · rename_i hIsLogin
        have hData : data.atKey "data" >>= Login.fromJson =
            .ok login := by
          cases hRead :
              data.atKey "data" >>= Login.fromJson with
          | error what =>
              rw [hRead] at hLogin
              cases hLogin
          | ok read =>
              rw [hRead] at hLogin
              cases hLogin
              rfl
        unfold processMessage onLogin
        rw [hParse]
        dsimp only
        rw [uncaught_eq_ok.mpr hType, Except.ok_bind,
          if_pos hIsLogin, if_neg hNew, hData]
      · cases hLogin
    · cases hLogin
  · cases hLogin

/-
  Whoever logs in to an account that is there, under a name
  that nobody is online with, comes online.
-/
theorem enters_of_free
    {login : Login}
    {body : List UInt8}
    {draws : Draws}
    {salt : Option (List UInt8)}
    (hNew : c ∉ h.authenticated)
    (hOpen : c ∉ h.closed)
    (hLogin : loginOf parse body = some login)
    (hAccepts : h.Accepts pbkdf2 login)
    (hStores : h.lobby.world.Stores
      (Auth.trimCopy login.username))
    (hFree : Auth.trimCopy login.username ∉ h.nameRegistry) :
    ∃ after,
      h.step parse pbkdf2 (.message c body draws salt) =
        .ok after ∧
      after.Online c ∧
      after.name c = Auth.trimCopy login.username := by
  have hHandled : ∃ after,
      h.handleLogin pbkdf2 login c salt = .ok after :=
    handleLogin_of_stored hAccepts hStores
  rcases hHandled with ⟨after, hHandle⟩
  have hProcess : h.processMessage parse pbkdf2 body c draws
      salt = .ok after :=
    (processMessage_of_loginOf hNew hLogin).trans hHandle
  refine ⟨after, ?_, ?_⟩
  · simp only [Handshake.step]
    rw [if_neg hOpen]
    exact hProcess
  · have hAdmits : h.Admits parse pbkdf2 c body
        (Auth.trimCopy login.username) :=
      ⟨hNew, login, hLogin, hAccepts, rfl⟩
    rcases processMessage_of_ok hProcess with
      ⟨hNobody, _⟩ | ⟨name, hName, hOutcome⟩
    · exact absurd hAdmits (hNobody _)
    · rw [hAdmits.unique hName] at hOutcome
      rcases hOutcome with ⟨hTaken, _⟩ | hEnters
      · exact absurd hTaken hFree
      · exact ⟨(hEnters.online_iff hOpen c).mpr (Or.inl rfl),
          hEnters.name_self⟩

------------------------------------------------------------
-- Runs
------------------------------------------------------------

variable {trace : List (Handshake × Event)}

theorem Run.listed
    (run : Run parse pbkdf2 users trace h) :
    h.Listed := by
  have hBoth : h.Registered ∧ h.Listed :=
    Transition.Run.invariant_of_step
      (fun (t : Handshake) _ _
          (hKept : t.Registered ∧ t.Listed) hOk =>
        ⟨hKept.1.step hOk, hKept.2.step hKept.1 hOk⟩)
      run ⟨opening_registered users, opening_listed users⟩
  exact hBoth.2

/- An event drops no account. -/
theorem stores_of_step
    (hOk : h.step parse pbkdf2 e = .ok after)
    (hStores : h.lobby.world.Stores username) :
    after.lobby.world.Stores username := by
  cases e with
  | message c body draws salt =>
      simp only [Handshake.step] at hOk
      split at hOk
      · cases hOk
      · rcases processMessage_of_ok hOk with
          ⟨_, hQuiet⟩ | ⟨_, _, ⟨_, hQuiet⟩ | hEnters⟩
        · exact hQuiet.world.stores _ hStores
        · exact hQuiet.world.stores _ hStores
        · exact hEnters.stores _ hStores
  | disconnect c shuffles =>
      rcases onDisconnect_of_step hOk with ⟨_, hGone⟩
      exact (onDisconnect_of_ok hGone).2.2.2.stores _ hStores

/- Whoever was online at some time has an account still. -/
theorem Run.stores_of_online
    {p : Handshake × Event}
    (run : Run parse pbkdf2 users trace h)
    (hMem : p ∈ trace)
    (hOnline : p.1.Online c) :
    h.lobby.world.Stores (p.1.name c) := by
  unfold Run at run
  induction run with
  | nil => cases hMem
  | @snoc prior t u e hPrior hStep ih =>
      apply stores_of_step hStep
      rcases List.mem_append.mp hMem with hEarlier | hLast
      · exact ih hEarlier
      · rw [List.mem_singleton.mp hLast] at hOnline ⊢
        exact (Run.registered hPrior).stored c hOnline

/-
  In every state that is reached, the names of those online
  are different and make up the name registry, and their
  connections the connection registry.  An event that brings
  nobody online and takes nobody off touches neither; a
  disconnect frees its player's name; and as long as nobody
  is online under the name of a player who has gone, the
  next login to his account gets it.
-/
theorem Run.registries
    (run : Run parse pbkdf2 users trace h) :
    h.Registered ∧ h.Listed ∧
      (∀ e after,
        h.step parse pbkdf2 e = .ok after →
          e.Fruitless h after → h.Untouched after) ∧
      (∀ c shuffles after, h.Online c →
        h.step parse pbkdf2 (.disconnect c shuffles) =
          .ok after →
        h.name c ∉ after.nameRegistry) ∧
      ∀ p ∈ trace, ∀ c shuffles,
        p.2 = .disconnect c shuffles → p.1.Online c →
        p.1.name c ∉ h.nameRegistry →
        ∀ d body draws salt login,
          d ∉ h.authenticated → d ∉ h.closed →
          loginOf parse body = some login →
          Auth.trimCopy login.username = p.1.name c →
          h.Accepts pbkdf2 login →
          ∃ after,
            h.step parse pbkdf2 (.message d body draws salt) =
              .ok after ∧
            after.Online d ∧ after.name d = p.1.name c := by
  have hReg := Run.registered run
  refine ⟨hReg, Run.listed run, ?_, ?_, ?_⟩
  · exact fun e after hOk hFruitless =>
      untouched_of_fruitless hOk hFruitless
  · exact fun c shuffles after hOnline hOk =>
      hReg.frees hOnline hOk
  · intro p hMem c shuffles _ hOnline hFree d body draws salt
      login hNew hOpen hLogin hName hAccepts
    have hStores := Run.stores_of_online run hMem hOnline
    rw [← hName] at hStores hFree ⊢
    exact enters_of_free hNew hOpen hLogin hAccepts hStores
      hFree

/- Alice goes, and neither registry holds anything. -/
theorem aliceLeaves_registries :
    ∃ trace h,
      Run loginParser loginPbkdf2 aliceUsers trace h ∧
        trace.length = 3 ∧ h.authenticated = {0} ∧
        h.closed = {0} ∧ h.Registered ∧ h.Listed := by
  have hPasses : Transition.passes
      (step loginParser loginPbkdf2) (opening aliceUsers)
      [login 0 "Alice", login 1 "Alice", .disconnect 0 []]
      (fun trace h =>
        decide (trace.length = 3 ∧ h.authenticated = {0} ∧
          h.closed = {0})) = true := by
    decide +kernel
  rcases Transition.exists_run_of_passes hPasses with
    ⟨trace, h, run, hTest⟩
  rcases of_decide_eq_true hTest with
    ⟨hLength, hAuthenticated, hClosed⟩
  have hBoth := Run.registries run
  exact ⟨trace, h, run, hLength, hAuthenticated, hClosed,
    hBoth.1, hBoth.2.1⟩

end Handshake

end Server

end Poker

import AsciiPoker.Server.Messaging.Logins

/-
  Who is online, under which name and on whose account.

  The name registry holds the names of those who are online,
  each of them once.  It compares names letter by letter and
  the table of accounts compares them without regard to
  case, so an account is online once at most exactly as long
  as nobody logs in to an account that is online under
  another spelling.

  Main declarations:
    * `Handshake.Exclusive`, `Handshake.SpelledAlike`
    * `Handshake.Registered`, `Handshake.Registered.step`
    * `Handshake.Registered.exclusive_step_iff`
    * `Handshake.Run.exclusive_iff`
-/

namespace Poker

namespace Server

namespace Handshake

variable {parse : Parser}
variable {pbkdf2 : Pbkdf2}
variable {users : UserRepository}
variable {h after : Handshake}
variable {c : ConnId}
variable {username : String}

------------------------------------------------------------
-- Accounts Online
------------------------------------------------------------

/- One row of the table is the account of both. -/
def SameAccount
    (h : Handshake)
    (c d : ConnId) : Prop :=
  ∃ users ∈ h.lobby.world.repository, ∃ user ∈ users.users,
    UserRepository.Matches (h.name c) user ∧
      UserRepository.Matches (h.name d) user

/- No account is online on two connections. -/
def Exclusive
    (h : Handshake) : Prop :=
  ∀ c d, h.Online c → h.Online d → h.SameAccount c d → c = d

/-
  Whoever logs in to an account that is online spells its
  name as it is spelled there.
-/
def SpelledAlike
    (parse : Parser)
    (pbkdf2 : Pbkdf2)
    (h : Handshake) : Event → Prop
| .message c body _ _ =>
    ∀ username, h.Admits parse pbkdf2 c body username →
      ∀ d, h.Online d → noCase (h.name d) = noCase username →
        h.name d = username
| .disconnect _ _ => True

------------------------------------------------------------
-- The Registry
------------------------------------------------------------

/-
  The registry holds the names of those who are online, no
  two of whom share one, and each of them has an account.
-/
structure Registered
    (h : Handshake) : Prop where
  registered : ∀ name, name ∈ h.nameRegistry ↔
    ∃ c, h.Online c ∧ h.name c = name
  distinct : ∀ c d, h.Online c → h.Online d →
    h.name c = h.name d → c = d
  stored : ∀ c, h.Online c → h.lobby.world.Stores (h.name c)

theorem opening_registered
    (users : UserRepository) :
    (opening users).Registered where
  registered := by simp [opening, Online]
  distinct := by simp [opening, Online]
  stored := by simp [opening, Online]

/- Those online when nobody comes or goes. -/
theorem Quiet.online_iff
    (hQuiet : h.Quiet after)
    (d : ConnId) :
    after.Online d ↔ h.Online d := by
  unfold Online
  rw [hQuiet.authenticated, hQuiet.closed]

theorem Quiet.name_eq
    (hQuiet : h.Quiet after)
    (d : ConnId) :
    after.name d = h.name d := by
  unfold name
  rw [hQuiet.world.names]

theorem Registered.quiet
    (hReg : h.Registered)
    (hQuiet : h.Quiet after) :
    after.Registered where
  registered := by
    intro name
    rw [hQuiet.nameRegistry, hReg.registered]
    simp only [hQuiet.online_iff, hQuiet.name_eq]
  distinct := by
    simp only [hQuiet.online_iff, hQuiet.name_eq]
    exact hReg.distinct
  stored := by
    simp only [hQuiet.online_iff, hQuiet.name_eq]
    exact fun d hd =>
      hQuiet.world.stores _ (hReg.stored d hd)

/- Those online once `c` has come. -/
theorem Enters.online_iff
    (hEnters : h.Enters c username after)
    (hOpen : c ∉ h.closed)
    (d : ConnId) :
    after.Online d ↔ d = c ∨ h.Online d := by
  unfold Online
  rw [hEnters.authenticated, hEnters.closed,
    Finset.mem_insert]
  by_cases hEq : d = c
  · simp [hEq, hOpen]
  · simp [hEq]

theorem Enters.name_self
    (hEnters : h.Enters c username after) :
    after.name c = username := by
  unfold name
  rw [hEnters.names]
  exact Function.update_self ..

theorem Enters.name_of_ne
    {d : ConnId}
    (hEnters : h.Enters c username after)
    (hNe : d ≠ c) :
    after.name d = h.name d := by
  unfold name
  rw [hEnters.names]
  exact Function.update_of_ne hNe ..

/- Whoever was online before `c` came is somebody else. -/
theorem ne_of_online
    {d : ConnId}
    (hNew : c ∉ h.authenticated)
    (hOnline : h.Online d) :
    d ≠ c := by
  intro hEq
  exact hNew (hEq ▸ hOnline.1)

theorem Registered.enters
    (hReg : h.Registered)
    (hEnters : h.Enters c username after)
    (hNew : c ∉ h.authenticated)
    (hOpen : c ∉ h.closed) :
    after.Registered := by
  have hOnline := hEnters.online_iff hOpen
  have hSame : ∀ d, h.Online d → after.name d = h.name d :=
    fun d hd => hEnters.name_of_ne (ne_of_online hNew hd)
  have hUnused : ∀ d, h.Online d → h.name d ≠ username := by
    intro d hd hEq
    exact hEnters.fresh
      ((hReg.registered username).mpr ⟨d, hd, hEq⟩)
  refine ⟨?_, ?_, ?_⟩
  · intro name
    rw [hEnters.nameRegistry, Finset.mem_insert,
      hReg.registered]
    constructor
    · rintro (rfl | ⟨d, hd, hName⟩)
      · exact ⟨c, (hOnline c).mpr (Or.inl rfl),
          hEnters.name_self⟩
      · exact ⟨d, (hOnline d).mpr (Or.inr hd),
          (hSame d hd).trans hName⟩
    · rintro ⟨d, hd, hName⟩
      rcases (hOnline d).mp hd with rfl | hd
      · exact Or.inl (hName.symm.trans hEnters.name_self)
      · exact Or.inr ⟨d, hd, (hSame d hd).symm.trans hName⟩
  · intro d e hd he hName
    rcases (hOnline d).mp hd with rfl | hd
    · rcases (hOnline e).mp he with rfl | he
      · rfl
      · rw [hEnters.name_self, hSame e he] at hName
        exact absurd hName.symm (hUnused e he)
    · rcases (hOnline e).mp he with rfl | he
      · rw [hEnters.name_self, hSame d hd] at hName
        exact absurd hName (hUnused d hd)
      · rw [hSame d hd, hSame e he] at hName
        exact hReg.distinct d e hd he hName
  · intro d hd
    rcases (hOnline d).mp hd with rfl | hd
    · rw [hEnters.name_self]
      exact hEnters.stored
    · rw [hSame d hd]
      exact hEnters.stores _ (hReg.stored d hd)

/- What is left when a connection has gone. -/
theorem Registered.leaves
    {shuffles : List Shuffle}
    (hReg : h.Registered)
    (hOpen : c ∉ h.closed)
    (hOk : h.onDisconnect c shuffles = .ok after) :
    after.Registered ∧
      (∀ d, after.Online d ↔ d ≠ c ∧ h.Online d) ∧
      ∀ d, after.name d = h.name d := by
  rcases onDisconnect_of_ok hOk with
    ⟨hRegistry, hAuthenticated, hClosed, hKeeps⟩
  have hOnline : ∀ d,
      after.Online d ↔ d ≠ c ∧ h.Online d := by
    intro d
    unfold Online
    rw [hAuthenticated, hClosed, Finset.mem_insert]
    tauto
  have hName : ∀ d, after.name d = h.name d := by
    intro d
    unfold name
    rw [hKeeps.names]
  refine ⟨⟨?_, ?_, ?_⟩, hOnline, hName⟩
  · intro name
    simp only [hOnline, hName]
    rw [hRegistry]
    by_cases hThere : c ∈ h.authenticated
    · have hHere : h.Online c := ⟨hThere, hOpen⟩
      rw [if_pos hThere, Finset.mem_erase, hReg.registered]
      constructor
      · rintro ⟨hNe, d, hd, rfl⟩
        exact ⟨d, ⟨fun hEq => hNe (by rw [hEq]), hd⟩, rfl⟩
      · rintro ⟨d, ⟨hNe, hd⟩, rfl⟩
        exact ⟨fun hEq => hNe (hReg.distinct d c hd hHere hEq),
          d, hd, rfl⟩
    · rw [if_neg hThere, hReg.registered]
      constructor
      · rintro ⟨d, hd, rfl⟩
        exact ⟨d, ⟨ne_of_online hThere hd, hd⟩, rfl⟩
      · rintro ⟨d, ⟨_, hd⟩, rfl⟩
        exact ⟨d, hd, rfl⟩
  · intro d e hd he hEq
    rw [hName, hName] at hEq
    exact hReg.distinct d e ((hOnline d).mp hd).2
      ((hOnline e).mp he).2 hEq
  · intro d hd
    rw [hName]
    exact hKeeps.stores _
      (hReg.stored d ((hOnline d).mp hd).2)

/- Every event keeps the registry exact. -/
theorem Registered.step
    {e : Event}
    (hReg : h.Registered)
    (hOk : h.step parse pbkdf2 e = .ok after) :
    after.Registered := by
  cases e with
  | message c body draws salt =>
      simp only [Handshake.step] at hOk
      split at hOk
      · cases hOk
      · rename_i hOpen
        rcases processMessage_of_ok hOk with
          ⟨_, hQuiet⟩ |
            ⟨username, hAdmits, ⟨_, hQuiet⟩ | hEnters⟩
        · exact hReg.quiet hQuiet
        · exact hReg.quiet hQuiet
        · exact hReg.enters hEnters hAdmits.1 hOpen
  | disconnect c shuffles =>
      simp only [Handshake.step] at hOk
      split at hOk
      · cases hOk
      · rename_i hOpen
        exact (hReg.leaves hOpen hOk).1

theorem Run.registered
    {trace : List (Handshake × Event)}
    (run : Run parse pbkdf2 users trace h) :
    h.Registered :=
  Transition.Run.invariant_of_step
    (fun _ _ _ hReg hOk => hReg.step hOk)
    run (opening_registered users)

------------------------------------------------------------
-- One Connection for an Account
------------------------------------------------------------

/- Those online share an account if their names fold alike. -/
theorem Registered.sameAccount_iff
    {d : ConnId}
    (hReg : h.Registered)
    (hOnline : h.Online c) :
    h.SameAccount c d ↔
      noCase (h.name c) = noCase (h.name d) := by
  constructor
  · rintro ⟨found, _, user, _, hFirst, hSecond⟩
    exact hFirst.symm.trans hSecond
  · intro hSame
    rcases hReg.stored c hOnline with
      ⟨found, hFound, user, hUser, hMatches⟩
    exact ⟨found, hFound, user, hUser, hMatches,
      hMatches.trans hSame⟩

theorem Registered.exclusive_iff_alone
    (hReg : h.Registered) :
    h.Exclusive ↔ ∀ c d, h.Online c → h.Online d →
      noCase (h.name c) = noCase (h.name d) → c = d := by
  unfold Exclusive
  constructor
  · intro hAll c d hc hd hSame
    exact hAll c d hc hd ((hReg.sameAccount_iff hc).mpr hSame)
  · intro hAll c d hc hd hSame
    exact hAll c d hc hd ((hReg.sameAccount_iff hc).mp hSame)

/-
  Coming online keeps accounts apart when nobody online has
  the name in any spelling.
-/
theorem Registered.exclusive_enters_iff
    (hReg : h.Registered)
    (hExclusive : h.Exclusive)
    (hEnters : h.Enters c username after)
    (hNew : c ∉ h.authenticated)
    (hOpen : c ∉ h.closed) :
    after.Exclusive ↔
      ∀ d, h.Online d → noCase (h.name d) ≠ noCase username := by
  have hOnline := hEnters.online_iff hOpen
  have hSame : ∀ d, h.Online d → after.name d = h.name d :=
    fun d hd => hEnters.name_of_ne (ne_of_online hNew hd)
  rw [(hReg.enters hEnters hNew hOpen).exclusive_iff_alone]
  rw [hReg.exclusive_iff_alone] at hExclusive
  constructor
  · intro hAll d hd hFold
    have hEq := hAll d c ((hOnline d).mpr (Or.inr hd))
      ((hOnline c).mpr (Or.inl rfl))
      (by rw [hSame d hd, hEnters.name_self, hFold])
    exact ne_of_online hNew hd hEq
  · intro hNone d e hd he hFold
    rcases (hOnline d).mp hd with rfl | hd
    · rcases (hOnline e).mp he with rfl | he
      · rfl
      · rw [hEnters.name_self, hSame e he] at hFold
        exact absurd hFold.symm (hNone e he)
    · rcases (hOnline e).mp he with rfl | he
      · rw [hEnters.name_self, hSame d hd] at hFold
        exact absurd hFold (hNone d hd)
      · rw [hSame d hd, hSame e he] at hFold
        exact hExclusive d e hd he hFold

/- A body admits its connection under one name. -/
theorem Admits.unique
    {body : List UInt8}
    {other : String}
    (hAdmits : h.Admits parse pbkdf2 c body username)
    (hOther : h.Admits parse pbkdf2 c body other) :
    other = username := by
  rcases hAdmits with ⟨_, login, hLogin, _, rfl⟩
  rcases hOther with ⟨_, again, hAgain, _, rfl⟩
  rw [hLogin] at hAgain
  cases hAgain
  rfl

/-
  An event keeps accounts apart exactly when no login it
  admits spells a name otherwise than it is online.
-/
theorem Registered.exclusive_step_iff
    {e : Event}
    (hReg : h.Registered)
    (hExclusive : h.Exclusive)
    (hOk : h.step parse pbkdf2 e = .ok after) :
    after.Exclusive ↔ h.SpelledAlike parse pbkdf2 e := by
  have hAlone := hReg.exclusive_iff_alone.mp hExclusive
  cases e with
  | message c body draws salt =>
      simp only [Handshake.step] at hOk
      split at hOk
      · cases hOk
      · rename_i hOpen
        have hQuietly : h.Quiet after → after.Exclusive := by
          intro hQuiet
          rw [(hReg.quiet hQuiet).exclusive_iff_alone]
          simp only [hQuiet.online_iff, hQuiet.name_eq]
          exact hAlone
        rcases processMessage_of_ok hOk with
          ⟨hNobody, hQuiet⟩ |
            ⟨username, hAdmits, ⟨hTaken, hQuiet⟩ | hEnters⟩
        · refine ⟨fun _ => ?_, fun _ => hQuietly hQuiet⟩
          exact fun name hName => absurd hName (hNobody name)
        · -- The registry knows the name, so it is the one.
          refine ⟨fun _ => ?_, fun _ => hQuietly hQuiet⟩
          intro name hName d hd hFold
          rw [hAdmits.unique hName] at hFold ⊢
          rcases (hReg.registered username).mp hTaken with
            ⟨e, he, rfl⟩
          rw [hAlone d e hd he hFold]
        · rw [hReg.exclusive_enters_iff hExclusive hEnters
            hAdmits.1 hOpen]
          constructor
          · intro hNone name hName d hd hFold
            rw [hAdmits.unique hName] at hFold
            exact absurd hFold (hNone d hd)
          · intro hAlike d hd hFold
            have hName := hAlike username hAdmits d hd hFold
            exact hEnters.fresh ((hReg.registered _).mpr
              ⟨d, hd, hName⟩)
  | disconnect c shuffles =>
      simp only [Handshake.step] at hOk
      split at hOk
      · cases hOk
      · rename_i hOpen
        rcases hReg.leaves hOpen hOk with
          ⟨hAfter, hOnline, hName⟩
        refine ⟨fun _ => trivial, fun _ => ?_⟩
        rw [hAfter.exclusive_iff_alone]
        simp only [hOnline, hName]
        exact fun d e hd he hFold =>
          hAlone d e hd.2 he.2 hFold

/-
  In a run no account is ever online twice exactly when no
  login spells a name otherwise than it is online.
-/
theorem Run.exclusive_iff
    {trace : List (Handshake × Event)}
    (run : Run parse pbkdf2 users trace h) :
    (h.Exclusive ∧ ∀ p ∈ trace, p.1.Exclusive) ↔
      ∀ p ∈ trace, p.1.SpelledAlike parse pbkdf2 p.2 := by
  unfold Run at run
  induction run with
  | nil =>
      refine ⟨fun _ => by simp, fun _ => ⟨?_, by simp⟩⟩
      simp [Exclusive, opening, Online]
  | @snoc prior t u e hPrior hStep ih =>
      have hReg := Run.registered hPrior
      simp only [List.mem_append, List.mem_singleton, or_imp,
        forall_and, forall_eq]
      rw [← ih]
      constructor
      · rintro ⟨hLast, hEarlier, hHere⟩
        exact ⟨⟨hHere, hEarlier⟩,
          (hReg.exclusive_step_iff hHere hStep).mp hLast⟩
      · rintro ⟨⟨hHere, hEarlier⟩, hAlike⟩
        exact ⟨(hReg.exclusive_step_iff hHere hStep).mpr
          hAlike, hEarlier, hHere⟩

------------------------------------------------------------
-- Two Spellings of One Name
------------------------------------------------------------

/- The JSON of a login. -/
def loginData
    (username : String) : Json :=
  .object
    [("data", .object
        [("password", .string "secret1"),
          ("username", .string username)]),
      ("type", .string "login")]

/- The packet of a login. -/
def loginBody
    (username : String) : List UInt8 :=
  String.toByteArray
      ("\x7b\"type\":\"login\",\"data\":\x7b\"username\":\"" ++
        username ++ "\",\"password\":\"secret1\"\x7d\x7d")
    |>.toList

/- The parser on the packets of two logins. -/
def loginParser : Parser := fun body =>
  if body = loginBody "Alice" then
    .value (loginData "Alice")
  else if body = loginBody "alice" then
    .value (loginData "alice")
  else
    .parseError []

def salt : String := "000102030405060708090a0b0c0d0e0f"

/- The key of `secret1` with this salt. -/
def key : String :=
  "51f7afaa8339e6a3fbb0dde49171c3c1" ++
    "dc6d4547dcf8ca00135643da938534c7"

def loginPbkdf2 : Pbkdf2 := fun password drawn iterations =>
  if password = "secret1" ∧ iterations = 100000 ∧
      some drawn = PasswordHasher.fromHex salt.toList then
    PasswordHasher.fromHex key.toList
  else
    none

/- The account of Alice. -/
def aliceUsers : UserRepository where
  users :=
    [{ username := "Alice"
       passwordHash :=
         "pbkdf2-sha256$100000$" ++ salt ++ "$" ++ key
       chips := 1000 }]

/- Connection `c` logs in under a name. -/
def login
    (c : ConnId)
    (username : String) : Event :=
  .message c (loginBody username) {} none

/- A second login as `Alice` is refused. -/
theorem sameSpelling_spelledAlike :
    ∃ trace h,
      Run loginParser loginPbkdf2 aliceUsers trace h ∧
        h.authenticated = {0} ∧ trace.length = 2 ∧
        ∀ p ∈ trace,
          p.1.SpelledAlike loginParser loginPbkdf2 p.2 := by
  have hPasses : Transition.passes
      (step loginParser loginPbkdf2) (opening aliceUsers)
      [login 0 "Alice", login 1 "Alice"]
      (fun trace h =>
        decide (h.authenticated = {0} ∧ trace.length = 2) &&
        trace.all fun p =>
          decide (p.1.authenticated ⊆ {0})) = true := by
    decide +kernel
  rcases Transition.exists_run_of_passes hPasses with
    ⟨trace, h, run, hTest⟩
  rw [Bool.and_eq_true, decide_eq_true_eq] at hTest
  rcases hTest with ⟨⟨hLast, hLength⟩, hTrace⟩
  have hAlone : ∀ t : Handshake,
      t.authenticated ⊆ {0} → t.Exclusive := by
    intro t hSub c d hc hd _
    rw [Finset.mem_singleton.mp (hSub hc.1),
      Finset.mem_singleton.mp (hSub hd.1)]
  refine ⟨trace, h, run, hLast, hLength,
    (Run.exclusive_iff run).mp ⟨hAlone h ?_, fun p hp => ?_⟩⟩
  · rw [hLast]
  · exact hAlone p.1
      (by simpa using List.all_eq_true.mp hTrace p hp)

/- A second login as `alice` is let in beside `Alice`. -/
theorem otherSpelling_not_exclusive :
    ¬ ∀ parse pbkdf2 users trace h,
      Run parse pbkdf2 users trace h → h.Exclusive := by
  intro hAll
  have hPasses : Transition.passes
      (step loginParser loginPbkdf2) (opening aliceUsers)
      [login 0 "Alice", login 1 "alice"]
      (fun _ h =>
        decide (h.authenticated = {0, 1} ∧ h.closed = ∅ ∧
          h.name 0 = "Alice" ∧ h.name 1 = "alice")) =
        true := by
    decide +kernel
  rcases Transition.exists_run_of_passes hPasses with
    ⟨trace, h, run, hTest⟩
  rw [decide_eq_true_eq] at hTest
  rcases hTest with ⟨hBoth, hNone, hFirst, hSecond⟩
  have hOnline : h.Online 0 ∧ h.Online 1 := by
    simp [Online, hBoth, hNone]
  have hExclusive := hAll _ _ _ _ _ run
  have hSame : noCase (h.name 0) = noCase (h.name 1) := by
    rw [hFirst, hSecond]
    decide +kernel
  have hEq := (Run.registered run).exclusive_iff_alone.mp hExclusive
    0 1 hOnline.1 hOnline.2 hSame
  cases hEq

end Handshake

end Server

end Poker

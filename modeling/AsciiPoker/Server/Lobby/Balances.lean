import AsciiPoker.Server.GameSession.Departures
import AsciiPoker.Server.Lobby.Moves

/-
  What the calls of a room make of the stored balances.

  A session writes to the accounts of its own players only,
  and what the repository holds for them is what it wrote
  last, while they have accounts of their own.

  Main declarations:
    * `World.balance`, `World.Reliable`,
      `World.performSince_balance`
    * `World.Follows`, `World.Spares`
    * `GameSession.Attached`, `GameSession.Stored`
    * `Room.Evolves.attached`, `Room.Evolves.stored`,
      `Room.Evolves.spares`
-/

namespace Poker

namespace Server

open Protocol

------------------------------------------------------------
-- Balances
------------------------------------------------------------

namespace World

/- The chips of an account, if there is one. -/
def balance
    (world : World)
    (username : String) : Option UInt32 := do
  let users ← world.repository
  let user ← users.findByUsername username
  user.chips

/- There is a repository, and no update of it fails. -/
structure Reliable
    (world : World) : Prop where
  repository : world.repository.isSome = true
  carriesOut : ∀ users ∈ world.repository, users.Reliable

instance
    (world : World) :
    Decidable world.Reliable :=
  decidable_of_iff
    (world.repository.isSome = true ∧
      ∀ users ∈ world.repository, users.Reliable)
    ⟨fun ⟨hSome, hAll⟩ => ⟨hSome, hAll⟩,
      fun ⟨hSome, hAll⟩ => ⟨hSome, hAll⟩⟩

variable {world after : World}
variable {username : String}

theorem findByUsername_updateChips
    {users : UserRepository}
    (hReliable : users.Reliable)
    (name username : String)
    (chips : UInt32) :
    (users.updateChips name chips).findByUsername username =
      (users.findByUsername username).map fun user =>
        if UserRepository.Matches name user then
          { user with chips := chips }
        else
          user := by
  unfold UserRepository.updateChips
    UserRepository.findByUsername
  simp only [hReliable.refuses, Bool.false_eq_true, if_false]
  rw [List.find?_map]
  congr 1
  apply congrArg (fun test => users.users.find? test)
  funext user
  dsimp only [Function.comp]
  split
  · rfl
  · rfl

/- What is told to a reliable world is carried out. -/
theorem Reliable.perform
    (hReliable : world.Reliable)
    (effect : Effect) :
    (world.perform effect).Reliable := by
  cases effect with
  | send player msg =>
      exact ⟨hReliable.repository, hReliable.carriesOut⟩
  | updateChips name chips =>
      refine ⟨?_, ?_⟩
      · simpa [World.perform] using hReliable.repository
      · intro users hUsers
        rcases Option.mem_map.mp hUsers with
          ⟨before, hBefore, rfl⟩
        exact (hReliable.carriesOut before
          hBefore).updateChips name chips

/- What an effect makes of a balance. -/
theorem perform_balance
    (hReliable : world.Reliable)
    (effect : Effect)
    (username : String) :
    (world.perform effect).balance username =
      (world.balance username).map fun chips =>
        (effect.written (noCase username)).getD chips := by
  cases effect with
  | send player msg =>
      simp [perform, send, balance, Effect.written]
  | updateChips name chips =>
      unfold balance World.perform
      cases hUsers : world.repository with
      | none => rfl
      | some users =>
          have hCarries := hReliable.carriesOut users hUsers
          simp only [Option.map_some, Option.bind_eq_bind,
            Option.bind_some,
            findByUsername_updateChips hCarries]
          cases hFind : users.findByUsername username with
          | none => rfl
          | some user =>
              have hUser : noCase user.username =
                  noCase username := by
                have hMatches := List.find?_some hFind
                exact of_decide_eq_true hMatches
              unfold Effect.written
              by_cases hName : noCase name = noCase username
              · have hMatches :
                    UserRepository.Matches name user :=
                  hUser.trans hName.symm
                simp [hName, hMatches]
              · have hMatches :
                    ¬ UserRepository.Matches name user :=
                  fun h => hName (h.symm.trans hUser)
                simp [hName, hMatches]

/- The last write to an account is its balance. -/
theorem foldl_perform_balance
    (effects : List Effect)
    (hReliable : world.Reliable)
    (username : String) :
    (effects.foldl World.perform world).balance username =
      (world.balance username).map fun chips =>
        (effects.filterMap (Effect.written
          (noCase username))).getLast?.getD chips := by
  induction effects generalizing world with
  | nil => simp
  | cons effect effects ih =>
      rw [List.foldl_cons, ih (hReliable.perform effect),
        perform_balance hReliable, Option.map_map,
        List.filterMap_cons]
      congr 1
      funext chips
      cases effect.written (noCase username) with
      | none => rfl
      | some written => simp [List.getLast?_cons]

theorem performSince_balance
    {s t : GameSession}
    {new : String → List UInt32}
    (hLogs : s.Logs t new)
    (hReliable : world.Reliable)
    (username : String) :
    (world.performSince s t).balance username =
      (world.balance username).map fun chips =>
        (new (noCase username)).getLast?.getD chips := by
  rcases hLogs with ⟨entries, hLog, hNew⟩
  unfold performSince
  rw [hLog, List.drop_left,
    foldl_perform_balance entries hReliable, hNew]

------------------------------------------------------------
-- What Is Kept of a World
------------------------------------------------------------

/- The names are the same, and a repository is still there. -/
structure Follows
    (world after : World) : Prop where
  names : after.names = world.names
  repository : after.repository.isSome =
    world.repository.isSome
  reliable : world.Reliable → after.Reliable

theorem Follows.refl
    (world : World) :
    world.Follows world :=
  ⟨rfl, rfl, id⟩

theorem Follows.trans
    {last : World}
    (hFirst : world.Follows after)
    (hSecond : after.Follows last) :
    world.Follows last :=
  ⟨hSecond.names.trans hFirst.names,
    hSecond.repository.trans hFirst.repository,
    fun hReliable =>
      hSecond.reliable (hFirst.reliable hReliable)⟩

theorem Told.follows
    (hTold : world.Told after) :
    world.Follows after := by
  rcases hTold with ⟨_, rfl⟩
  exact ⟨rfl, rfl, fun ⟨hSome, hAll⟩ => ⟨hSome, hAll⟩⟩

theorem Told.balance
    (hTold : world.Told after) :
    after.balance = world.balance := by
  rcases hTold with ⟨_, rfl⟩
  rfl

theorem performSince_follows
    (world : World)
    (s t : GameSession) :
    world.Follows (world.performSince s t) := by
  unfold performSince
  generalize t.log.drop s.log.length = effects
  induction effects generalizing world with
  | nil => exact Follows.refl world
  | cons effect effects ih =>
      rw [List.foldl_cons]
      refine Follows.trans ⟨?_, ?_, ?_⟩
        (ih (world.perform effect))
      · cases effect with
        | send player msg => rfl
        | updateChips name chips => rfl
      · cases effect with
        | send player msg => rfl
        | updateChips name chips => simp [World.perform]
      · exact fun hReliable => hReliable.perform effect

/- The accounts of everybody else are as they were. -/
def Spares
    (world : World)
    (connections : List ConnId)
    (after : World) : Prop :=
  ∀ username,
    (∀ c ∈ connections,
      noCase (world.names c) ≠ noCase username) →
    after.balance username = world.balance username

/- No two of the connections share an account. -/
def OwnAccounts
    (world : World)
    (connections : List ConnId) : Prop :=
  ∀ c ∈ connections, ∀ d ∈ connections,
    noCase (world.names c) = noCase (world.names d) → c = d

instance
    (world : World)
    (connections : List ConnId) :
    Decidable (world.OwnAccounts connections) :=
  inferInstanceAs (Decidable (∀ c ∈ connections,
    ∀ d ∈ connections, _ → _))

end World

------------------------------------------------------------
-- Sessions and Their World
------------------------------------------------------------

/- The session has the names and a repository of the world. -/
structure GameSession.Attached
    (s : GameSession)
    (world : World) : Prop where
  names : s.names = world.names
  hasRepository : s.hasRepository = world.repository.isSome

/-
  The session came about at a table of players with accounts
  of their own, by these steps.
-/
structure GameSession.PlayedBy
    (s : GameSession)
    (table : Table)
    (history : List (Config × Event)) : Prop where
  hasRepository : table.hasRepository = true
  ownAccounts : table.create.OwnAccounts
  run : table.Run history ⟨s, .done⟩

/-
  What the repository holds for the players of a session is
  what the session wrote last.
-/
structure GameSession.Stored
    (s : GameSession)
    (world : World) : Prop where
  played : ∃ table history, s.PlayedBy table history
  balances : ∀ p ∈ s.players,
    (s.saved (s.account p)).isSome ∧
      world.balance (s.names p) = s.saved (s.account p)

namespace GameSession

variable {s t called : GameSession}
variable {world after : World}
variable {e : Event}
variable {pending : Pending}
variable {shuffles : List Shuffle}

/- A call of a session and all that it runs. -/
theorem run_of_call
    (hOk : Config.step ⟨s, .done⟩ e = .ok ⟨called, pending⟩)
    (hFinish : Config.finish ⟨called, pending⟩ shuffles =
      .ok t) :
    ∃ later, Transition.Run Config.step ⟨s, .done⟩ later
      ⟨t, .done⟩ := by
  rcases Config.finish_run hFinish with ⟨later, rest, _⟩
  exact ⟨_, Transition.Run.cons hOk rest⟩

theorem Attached.run
    {c d : Config}
    {trace : List (Config × Event)}
    (hAttached : c.session.Attached world)
    (run : Transition.Run Config.step c trace d)
    (hFollows : world.Follows after) :
    d.session.Attached after := by
  have hKeeps := Config.run_keeps run
  exact ⟨hKeeps.names.trans
      (hAttached.names.trans hFollows.names.symm),
    hKeeps.hasRepository.trans
      (hAttached.hasRepository.trans
        hFollows.repository.symm)⟩

/- A run writes to no account but those of its players. -/
theorem run_spares
    {c d : Config}
    {trace : List (Config × Event)}
    {connections : List ConnId}
    (run : Transition.Run Config.step c trace d)
    (hReliable : world.Reliable)
    (hSeated : c.Seated)
    (hRepository : c.session.hasRepository = true)
    (hNames : c.session.names = world.names)
    (hPlayers : c.session.players ⊆ connections) :
    world.Spares connections
      (world.performSince c.session d.session) := by
  intro username hNobody
  have hGone : c.Gone (noCase username) := by
    refine ⟨hSeated, hRepository, fun q hq => ?_⟩
    unfold account
    rw [hNames]
    exact hNobody q (hPlayers hq)
  rcases Config.run_logs hRepository run with ⟨new, hLogs⟩
  have hNone : new (noCase username) = [] := by
    have hSame := (hGone.run run).2
    rw [hLogs.written] at hSame
    simpa using hSame
  rw [World.performSince_balance hLogs hReliable, hNone]
  simp

/- A run writes down what it saves. -/
theorem run_balance
    {c d : Config}
    {trace : List (Config × Event)}
    {username : String}
    (run : Transition.Run Config.step c trace d)
    (hReliable : world.Reliable)
    (hRepository : c.session.hasRepository = true)
    (hAccount : (world.balance username).isSome)
    (hBefore : ∀ balance,
      c.session.saved (noCase username) = some balance →
        world.balance username = some balance)
    (hSaved : (d.session.saved (noCase username)).isSome) :
    (world.performSince c.session d.session).balance
        username = d.session.saved (noCase username) := by
  rcases Config.run_logs hRepository run with ⟨new, hLogs⟩
  rcases Option.isSome_iff_exists.mp hAccount with
    ⟨old, hOld⟩
  have hAfter := hLogs.saved (noCase username)
  rw [World.performSince_balance hLogs hReliable, hOld]
  rw [hAfter] at hSaved ⊢
  cases hLast : (new (noCase username)).getLast? with
  | some written => rfl
  | none =>
      rw [hLast, Option.none_or] at hSaved
      rcases Option.isSome_iff_exists.mp hSaved with
        ⟨balance, hBalance⟩
      have hSame := hBefore balance hBalance
      rw [hOld] at hSame
      rw [Option.none_or, hBalance]
      exact hSame

/- Nothing was written to the accounts of its players. -/
theorem Stored.spared
    {connections : List ConnId}
    (hStored : s.Stored world)
    (hAttached : s.Attached world)
    (hSpares : world.Spares connections after)
    (hApart : ∀ p ∈ s.players, ∀ c ∈ connections,
      noCase (world.names c) ≠ noCase (world.names p)) :
    s.Stored after := by
  refine ⟨hStored.played, fun p hp => ?_⟩
  rcases hStored.balances p hp with ⟨hSome, hBalance⟩
  refine ⟨hSome, ?_⟩
  rw [← hBalance]
  apply hSpares
  rw [hAttached.names]
  exact hApart p hp

/- A call writes down what it saves of those who stay. -/
theorem Stored.call
    (hStored : s.Stored world)
    (hReliable : world.Reliable)
    (hOk : Config.step ⟨s, .done⟩ e = .ok ⟨called, pending⟩)
    (hFinish : Config.finish ⟨called, pending⟩ shuffles =
      .ok t) :
    t.Stored (world.performSince s t) := by
  rcases hStored.played with
    ⟨table, history, hRepository, hOwn, run⟩
  rcases run_of_call hOk hFinish with ⟨later, rest⟩
  have hThere := run.tracked hRepository hOwn
  have hAll : table.Run (history ++ later) ⟨t, .done⟩ :=
    run.append rest
  have hHere := hAll.tracked hRepository hOwn
  have hKeeps := Config.run_keeps rest
  refine ⟨⟨table, _, hRepository, hOwn, hAll⟩,
    fun p hp => ?_⟩
  have hSaved := hHere.saved (by simp) p hp
  refine ⟨hSaved, ?_⟩
  rcases hStored.balances p (hKeeps.players hp) with
    ⟨hSome, hBalance⟩
  have hNames : t.names p = s.names p :=
    congrFun hKeeps.names p
  unfold account at hSaved ⊢
  rw [hNames] at hSaved ⊢
  refine run_balance rest hReliable hThere.hasRepository ?_
    ?_ hSaved
  · rw [hBalance]
    exact hSome
  · intro balance hLast
    rw [hBalance]
    exact hLast

end GameSession

------------------------------------------------------------
-- Rooms
------------------------------------------------------------

namespace Room

variable {room after : Room}
variable {world world' : World}

/- Each of them has the big blind, and his bankroll is kept. -/
def Loads
    (world : World)
    (connections : List ConnId)
    (bankrolls : KeyMap String UInt32) : Prop :=
  ∀ c ∈ connections,
    BIG_BLIND ≤ bankroll world c ∧
      bankrolls.find (world.names c) =
        some (bankroll world c)

theorem Loads.snoc
    {done : List ConnId}
    {c : ConnId}
    {loaded next : KeyMap String UInt32}
    (hLoads : Loads world done loaded)
    (hOk : (if bankroll world c < BIG_BLIND then
        Except.error ErrorCode.notEnoughChips
      else
        Except.ok (loaded.set (world.names c)
          (bankroll world c))) = Except.ok next) :
    Loads world (done ++ [c]) next := by
  intro d hd
  split at hOk
  · cases hOk
  rename_i hRich
  cases hOk
  rw [KeyMap.find_set]
  by_cases hSame : world.names d = world.names c
  · have hEq : bankroll world d = bankroll world c := by
      unfold bankroll
      rw [hSame]
    rw [hEq, if_pos hSame]
    exact ⟨UInt32.not_lt.mp hRich, rfl⟩
  · rw [if_neg hSame]
    rcases List.mem_append.mp hd with hOld | hNew
    · exact hLoads d hOld
    · rw [List.mem_singleton.mp hNew] at hSame
      exact absurd rfl hSame

/- A game starts when everybody has the big blind. -/
theorem loadPlayerBankrolls_of_ok
    {bankrolls : KeyMap String UInt32}
    (hLoad : room.loadPlayerBankrolls world =
      .ok bankrolls) :
    Loads world room.players bankrolls := by
  have hStart : Loads world [] .empty := by simp [Loads]
  exact List.foldlM_prefix
    (fun _ _ _ _ _ _ hLoads hOk => hLoads.snoc hOk)
    hLoad hStart

/- A bankroll that pays the big blind is a stored balance. -/
theorem balance_of_bankroll
    {c : ConnId}
    (hRepository : world.repository.isSome = true)
    (hRich : BIG_BLIND ≤ bankroll world c) :
    world.balance (world.names c) =
      some (bankroll world c) := by
  unfold bankroll at hRich ⊢
  unfold World.balance
  cases hUsers : world.repository with
  | none =>
      rw [hUsers] at hRepository
      cases hRepository
  | some users =>
      rw [hUsers] at hRich
      dsimp only at hRich ⊢
      unfold World.storedChips at hRich ⊢
      cases hFind :
          users.findByUsername (world.names c) with
      | none =>
          rw [hFind] at hRich
          exact absurd hRich (by decide)
      | some user => simp [hFind]

/- The session has the names and repository of the world. -/
def Attached
    (room : Room)
    (world : World) : Prop :=
  ∀ s ∈ room.gameSession, s.Attached world

/- What the session saved is what the repository holds. -/
def Stored
    (room : Room)
    (world : World) : Prop :=
  ∀ s ∈ room.gameSession, s.Stored world

theorem Evolves.follows
    (hEvolves : room.Evolves after world world') :
    world.Follows world' := by
  cases hEvolves with
  | rested hSession hTold => exact hTold.follows
  | called hSession hOk hFinish hKept hTold =>
      exact (world.performSince_follows _ _).trans
        hTold.follows
  | created hNone hTold hLoad hFinish hSession hSent =>
      exact (hTold.follows.trans
        (World.performSince_follows _ _ _)).trans
          hSent.follows

theorem Evolves.attached
    (hEvolves : room.Evolves after world world')
    (hAttached : room.Attached world) :
    after.Attached world' := by
  have hFollows := hEvolves.follows
  intro u hu
  cases hEvolves with
  | rested hSession hTold =>
      rw [hSession] at hu
      have hThere := hAttached u hu
      exact ⟨hThere.names.trans hFollows.names.symm,
        hThere.hasRepository.trans hFollows.repository.symm⟩
  | called hSession hOk hFinish hKept hTold =>
      cases hKept u hu
      rcases GameSession.run_of_call hOk hFinish with
        ⟨later, run⟩
      exact GameSession.Attached.run
        (hAttached _ hSession) run hFollows
  | @created told bankrolls session shuffles hNone hTold hLoad
      hFinish hSession hSent =>
      rw [hSession] at hu
      cases hu
      rcases Config.finish_run hFinish with ⟨later, run, _⟩
      have hNew : (after.makeSession told bankrolls).Attached
          told := ⟨rfl, rfl⟩
      exact GameSession.Attached.run hNew run
        ((World.performSince_follows _ _ _).trans
          hSent.follows)

/- A game that starts stores the balances of its players. -/
theorem stored_of_created
    {session : GameSession}
    {bankrolls : KeyMap String UInt32}
    {shuffles : List Shuffle}
    (hOrder : after.InOrder)
    (hSession : after.gameSession = some session)
    (hReliable : world.Reliable)
    (hOwn : world.OwnAccounts after.players)
    (hLoad : after.loadPlayerBankrolls world = .ok bankrolls)
    (hFinish : Config.finish
      ⟨after.makeSession world bankrolls, .start⟩ shuffles =
        .ok session) :
    session.Stored (world.performSince
      (after.makeSession world bankrolls) session) := by
  have hRepository := hReliable.repository
  have hServes := hOrder.served session hSession
  have hCreate := @makeSession_eq_create after world
    bankrolls hOrder.nodup hServes.enough
  rcases Config.finish_run hFinish with ⟨later, run, _⟩
  rw [hCreate] at run
  have hTable : GameSession.OwnAccounts (Table.create
      { roster := after.roster hOrder.nodup hServes.enough
        names := world.names
        hasRepository := world.repository.isSome
        bankrolls := bankrolls }) := by
    rw [← hCreate]
    exact hOwn
  refine ⟨⟨_, later, hRepository, hTable, run⟩,
    fun p hp => ?_⟩
  have hThere := Table.Run.tracked run hRepository hTable
  have hSaved := hThere.saved (by simp) p hp
  refine ⟨hSaved, ?_⟩
  have hMem : p ∈ after.players := by
    rw [← hServes.players_eq]
    exact hp
  rw [← hCreate] at run
  have hNames : session.names p = world.names p :=
    congrFun (Config.run_keeps run).names p
  have hRich := (loadPlayerBankrolls_of_ok hLoad p hMem).1
  unfold GameSession.account at hSaved ⊢
  dsimp only at hSaved
  rw [hNames] at hSaved ⊢
  refine GameSession.run_balance run hReliable hRepository ?_
    ?_ hSaved
  · rw [balance_of_bankroll hRepository hRich]
    rfl
  · -- A new session has saved nothing.
    intro balance hLast
    cases hLast

theorem Evolves.stored
    (hEvolves : room.Evolves after world world')
    (hOrder : after.InOrder)
    (hReliable : world.Reliable)
    (hOwn : world.OwnAccounts after.players)
    (hStored : room.Stored world) :
    after.Stored world' := by
  intro u hu
  cases hEvolves with
  | rested hSession hTold =>
      rw [hSession] at hu
      rcases hStored u hu with ⟨hPlayed, hBalances⟩
      refine ⟨hPlayed, ?_⟩
      rw [hTold.balance]
      exact hBalances
  | called hSession hOk hFinish hKept hTold =>
      cases hKept u hu
      rcases (hStored _ hSession).call hReliable hOk
          hFinish with
        ⟨hPlayed, hBalances⟩
      refine ⟨hPlayed, ?_⟩
      rw [hTold.balance]
      exact hBalances
  | @created told bankrolls session shuffles hNone hTold hLoad
      hFinish hSession hSent =>
      rw [hSession] at hu
      cases hu
      have hFollows := hTold.follows
      have hHere : told.OwnAccounts after.players := by
        unfold World.OwnAccounts
        rw [hFollows.names]
        exact hOwn
      rcases stored_of_created hOrder hSession
          (hFollows.reliable hReliable) hHere hLoad
          hFinish with
        ⟨hPlayed, hBalances⟩
      refine ⟨hPlayed, ?_⟩
      rw [hSent.balance]
      exact hBalances

/- A room writes to no accounts but its players'. -/
theorem Evolves.spares
    (hEvolves : room.Evolves after world world')
    (hOrder : room.InOrder)
    (hOrder' : after.InOrder)
    (hReliable : world.Reliable)
    (hAttached : room.Attached world) :
    world.Spares (room.players ++ after.players) world' := by
  cases hEvolves with
  | rested hSession hTold =>
      intro username _
      rw [hTold.balance]
  | @called s t called e pending shuffles hSession hOk hFinish
      hKept hTold =>
      have hServes := hOrder.served s hSession
      have hThere := hAttached s hSession
      rcases hServes.played with ⟨table, trace, played⟩
      rcases GameSession.run_of_call hOk hFinish with
        ⟨later, run⟩
      have hPlayers : s.players ⊆
          room.players ++ after.players := by
        rw [hServes.players_eq]
        exact List.subset_append_left _ _
      intro username hNobody
      rw [hTold.balance]
      exact GameSession.run_spares run hReliable
        played.seated
        (hThere.hasRepository.trans hReliable.repository)
        hThere.names hPlayers username hNobody
  | @created told bankrolls session shuffles hNone hTold hLoad
      hFinish hSession hSent =>
      have hServes := hOrder'.served session hSession
      have hFollows := hTold.follows
      rcases Config.finish_run hFinish with ⟨later, run, _⟩
      have hSeated : Config.Seated
          ⟨after.makeSession told bankrolls, .start⟩ := by
        rw [makeSession_eq_create bankrolls hOrder'.nodup
          hServes.enough]
        exact Table.opening_seated _
      intro username hNobody
      rw [← hFollows.names] at hNobody
      rw [← hTold.balance, hSent.balance]
      have hTold' := hFollows.reliable hReliable
      exact GameSession.run_spares run hTold' hSeated
        hTold'.repository rfl
        (List.subset_append_right _ _) username hNobody

end Room

end Server

end Poker

import AsciiPoker.Server.GameSession.Backing
import AsciiPoker.Server.Lobby.Credentials
import AsciiPoker.Server.Lobby.StoredBalances

/-
  No chips are made.

  A game takes no money off the accounts: the chips at its
  table are still stored there.  So each session is given
  slack, by which the balances of its players may still grow
  again, and the slack of all the sessions with all that is
  stored never grows.

  Main declarations:
    * `World.wealth`, `World.wealth_exchange`
    * `GameSession.Slack`, `Room.Evolves.keepsSlack`
    * `Lobby.Funded`
    * `Lobby.Run.wealth_le`
-/

namespace Poker

namespace Server

open Protocol

------------------------------------------------------------
-- Accounts
------------------------------------------------------------

namespace UserRepository

/- The keys of the accounts. -/
def accounts
    (users : UserRepository) : List String :=
  users.users.map fun user => noCase user.username

/- The chips that are stored under a key. -/
def chipsAt
    (users : UserRepository)
    (account : String) : Nat :=
  ((users.users.find? fun user =>
    noCase user.username = account).map
      fun user => user.chips.toNat).getD 0

/- The chips of all the accounts. -/
def total
    (users : UserRepository) : Nat :=
  (users.users.map fun user => user.chips.toNat).sum

variable {users after : UserRepository}
variable {account : String}

/- The whole is the sum over the keys. -/
theorem total_eq
    (hDistinct : users.Distinct) :
    users.total = (users.accounts.map users.chipsAt).sum := by
  unfold total accounts
  rw [List.map_map]
  congr 1
  apply List.map_congr_left
  intro user hUser
  unfold chipsAt
  dsimp only [Function.comp]
  rw [List.find?_of_nodup_map hDistinct hUser]
  rfl

theorem chipsAt_of_not_mem
    (hNone : account ∉ users.accounts) :
    users.chipsAt account = 0 := by
  unfold chipsAt
  rw [List.find?_eq_none.mpr]
  · rfl
  · intro user hUser hSame
    exact hNone (List.mem_map.mpr
      ⟨user, hUser, of_decide_eq_true hSame⟩)

/- The keys can be read off the credentials. -/
theorem accounts_of_credentials
    (hSame : after.credentials = users.credentials) :
    after.accounts = users.accounts := by
  have hRead : ∀ users : UserRepository,
      users.accounts =
        users.credentials.map fun entry => noCase entry.1 := by
    intro users
    unfold accounts credentials
    rw [List.map_map]
    rfl
  rw [hRead, hRead, hSame]

end UserRepository

namespace World

/- All the chips that are stored. -/
def wealth
    (world : World) : Nat :=
  (world.repository.map UserRepository.total).getD 0

/- What is stored for a connection. -/
def holding
    (world : World)
    (c : ConnId) : Nat :=
  ((world.balance (world.names c)).getD 0).toNat

/- What is stored for some connections. -/
def holdings
    (world : World)
    (connections : List ConnId) : Nat :=
  (connections.map world.holding).sum

variable {world after : World}
variable {users : UserRepository}
variable {connections : List ConnId}

theorem balance_eq_chipsAt
    (hUsers : world.repository = some users)
    (username : String) :
    ((world.balance username).getD 0).toNat =
      users.chipsAt (noCase username) := by
  have hSearch : users.findByUsername username =
      users.users.find? fun user =>
        noCase user.username = noCase username := rfl
  unfold balance UserRepository.chipsAt
  rw [hUsers, ← hSearch]
  dsimp only [Option.bind_eq_bind, Option.bind_some]
  cases users.findByUsername username with
  | none => rfl
  | some user => rfl

theorem holdings_eq
    (hUsers : world.repository = some users) :
    world.holdings connections =
      ((connections.map fun c => noCase (world.names c)).map
        users.chipsAt).sum := by
  unfold holdings holding
  rw [List.map_map]
  congr 1
  apply List.map_congr_left
  intro c _
  exact balance_eq_chipsAt hUsers _

theorem OwnAccounts.nodup
    (hOwn : world.OwnAccounts connections)
    (hNodup : connections.Nodup) :
    (connections.map fun c => noCase (world.names c)).Nodup :=
  hNodup.map_on fun c hc d hd hSame => hOwn c hc d hd hSame

/- The accounts are the same ones with other chips. -/
theorem users_of_credentials
    (hUsers : world.repository = some users)
    (hDistinct : users.Distinct)
    (hSame : after.credentials = world.credentials) :
    ∃ stored, after.repository = some stored ∧
      stored.Distinct ∧ stored.accounts = users.accounts := by
  rcases Option.map_eq_some_iff.mp (hSame.trans
      (congrArg (Option.map UserRepository.credentials)
        hUsers)) with
    ⟨stored, hStored, hCredentials⟩
  refine ⟨stored, hStored, ?_,
    UserRepository.accounts_of_credentials hCredentials⟩
  rw [UserRepository.distinct_iff, hCredentials,
    ← UserRepository.distinct_iff]
  exact hDistinct

/-
  What some connections lose or win of what is stored is
  what the whole loses or wins.
-/
theorem wealth_exchange
    (hUsers : world.repository = some users)
    (hDistinct : users.Distinct)
    (hNames : after.names = world.names)
    (hSame : after.credentials = world.credentials)
    (hNodup : connections.Nodup)
    (hOwn : world.OwnAccounts connections)
    (hSpares : world.Spares connections after) :
    after.wealth + world.holdings connections =
      world.wealth + after.holdings connections := by
  rcases users_of_credentials hUsers hDistinct hSame with
    ⟨stored, hStored, hThere, hAccounts⟩
  have hAgree : ∀ account,
      account ∉ connections.map
        (fun c => noCase (world.names c)) →
      stored.chipsAt account = users.chipsAt account := by
    intro account hNobody
    by_cases hKey : account ∈ users.accounts
    · rcases List.mem_map.mp hKey with ⟨user, _, rfl⟩
      rw [← balance_eq_chipsAt hStored,
        ← balance_eq_chipsAt hUsers, hSpares]
      exact fun c hc hEq => hNobody
        (List.mem_map.mpr ⟨c, hc, hEq⟩)
    · rw [UserRepository.chipsAt_of_not_mem hKey,
        UserRepository.chipsAt_of_not_mem (hAccounts ▸ hKey)]
  have hKeys : ∀ account, account ∉ users.accounts →
      stored.chipsAt account = 0 ∧
        users.chipsAt account = 0 := by
    intro account hKey
    exact ⟨UserRepository.chipsAt_of_not_mem
        (hAccounts ▸ hKey),
      UserRepository.chipsAt_of_not_mem hKey⟩
  have hSum := List.sum_map_exchange_part hDistinct
    (hOwn.nodup hNodup) hKeys hAgree
  rw [holdings_eq hUsers, holdings_eq hStored, hNames]
  unfold wealth
  rw [hUsers, hStored]
  dsimp only [Option.map_some, Option.getD_some]
  rw [UserRepository.total_eq hDistinct,
    UserRepository.total_eq hThere, hAccounts]
  exact hSum

/- Some connections have no more than all there is. -/
theorem holdings_le_wealth
    (hUsers : world.repository = some users)
    (hDistinct : users.Distinct)
    (hNodup : connections.Nodup)
    (hOwn : world.OwnAccounts connections) :
    world.holdings connections ≤ world.wealth := by
  rw [holdings_eq hUsers]
  unfold wealth
  rw [hUsers]
  dsimp only [Option.map_some, Option.getD_some]
  rw [UserRepository.total_eq hDistinct]
  have hSum := List.sum_map_exchange_part
    (f := users.chipsAt)
    (g := fun account =>
      if account ∈ connections.map
          (fun c => noCase (world.names c)) then
        0
      else
        users.chipsAt account)
    hDistinct (hOwn.nodup hNodup)
    (fun account hKey => by
      simp [UserRepository.chipsAt_of_not_mem hKey])
    (fun account hNobody => by rw [if_neg hNobody])
  have hNone : ((connections.map fun c =>
      noCase (world.names c)).map fun account =>
      if account ∈ connections.map
          (fun c => noCase (world.names c)) then
        0
      else
        users.chipsAt account).sum = 0 := by
    rw [List.sum_eq_zero_iff, List.forall_mem_map]
    exact fun account hMem => if_pos hMem
  unfold UserRepository.accounts at hSum ⊢
  omega

end World

------------------------------------------------------------
-- Sessions
------------------------------------------------------------

namespace GameSession

/-
  The balances of the players may grow again by `slack`, and
  by no more than that.
-/
def Slack
    (s : GameSession)
    (slack : Nat) : Prop :=
  Config.Backed ⟨s, .done⟩ s.players
    (s.stored s.players + slack)

variable {s t called : GameSession}
variable {world : World}
variable {everybody : List PlayerId}
variable {funds slack : Nat}
variable {e : Event}
variable {pending : Pending}
variable {shuffles : List Shuffle}

/- What is not stored when a session rests is slack. -/
theorem slack_of_backed
    (hBacked : Config.Backed ⟨t, .done⟩ everybody funds) :
    ∃ slack, t.Slack slack ∧
      t.stored everybody + slack = funds := by
  have hFile := hBacked.onFile (by simp)
  have hTable := hBacked.atTable
  have hNodup := hBacked.accounted.inOrder.1.nodup
  have hSplit := stored_eq hNodup hBacked.nodup
    hBacked.among
  dsimp only at hFile hTable hSplit
  refine ⟨funds - t.stored everybody, ⟨hBacked.accounted,
    hBacked.hasRepository, hNodup, ?_, fun _ hp => hp, ?_,
    fun _ => ?_, hBacked.covered⟩, by omega⟩
  · exact fun p hp q hq => hBacked.ownAccounts p
      (hBacked.among hp) q (hBacked.among hq)
  · dsimp only
    rw [storedAway_self]
    omega
  · exact Nat.le_add_right _ _

/- What a resting session saved is what the world holds. -/
theorem Stored.holdings
    (hStored : s.Stored world)
    (hAttached : s.Attached world) :
    world.holdings s.players = s.stored s.players := by
  apply List.sum_map_congr
  intro p hp
  have hBalance := (hStored.balances p hp).2
  rw [hAttached.names] at hBalance
  unfold World.holding storedOf
  rw [hBalance]

/- A run leaves behind what it saved. -/
theorem holdings_of_run
    {c : Config}
    {trace : List (Config × Event)}
    (run : Transition.Run Config.step c trace ⟨t, .done⟩)
    (hReliable : world.Reliable)
    (hRepository : c.session.hasRepository = true)
    (hNames : c.session.names = world.names)
    (hBefore : ∀ p ∈ everybody,
      (world.balance (world.names p)).isSome ∧
        ∀ balance,
          c.session.saved (c.session.account p) =
            some balance →
          world.balance (world.names p) = some balance)
    (hSaved : ∀ p ∈ everybody,
      (t.saved (t.account p)).isSome) :
    (world.performSince c.session t).holdings everybody =
      t.stored everybody := by
  have hKeeps := Config.run_keeps run
  have hFollows := world.performSince_follows c.session t
  apply List.sum_map_congr
  intro p hp
  rcases hBefore p hp with ⟨hAccount, hSame⟩
  have hThere := hSaved p hp
  unfold GameSession.account at hSame hThere
  rw [hKeeps.names, hNames] at hThere
  rw [hNames] at hSame
  have hBalance := run_balance run hReliable hRepository
    hAccount hSame hThere
  unfold World.holding storedOf GameSession.account
  rw [hFollows.names, hBalance, hKeeps.names, hNames]

/- A call leaves as much slack as the balances fall. -/
theorem Slack.call
    (hSlack : s.Slack slack)
    (hReliable : world.Reliable)
    (hStored : s.Stored world)
    (hAttached : s.Attached world)
    (hOk : Config.step ⟨s, .done⟩ e = .ok ⟨called, pending⟩)
    (hFinish : Config.finish ⟨called, pending⟩ shuffles =
      .ok t) :
    ∃ after, t.Slack after ∧
      (world.performSince s t).holdings s.players + after =
        world.holdings s.players + slack := by
  rcases run_of_call hOk hFinish with ⟨later, run⟩
  rcases slack_of_backed (Config.Backed.run hSlack run) with
    ⟨after, hAfter, hFunds⟩
  have hRepository : s.hasRepository = true :=
    hSlack.hasRepository
  rcases Config.run_logs (c := ⟨s, .done⟩) hRepository run with
    ⟨new, hLogs⟩
  have hKeeps := Config.run_keeps run
  refine ⟨after, hAfter, ?_⟩
  rw [hStored.holdings hAttached, ← hFunds,
    holdings_of_run run hReliable hRepository
      hAttached.names]
  · intro p hp
    rcases hStored.balances p hp with ⟨hSome, hBalance⟩
    rw [← hAttached.names]
    refine ⟨hBalance ▸ hSome, fun balance hSaved => ?_⟩
    rw [hBalance]
    exact hSaved
  · intro p hp
    have hAccount : t.account p = s.account p := by
      unfold GameSession.account
      rw [hKeeps.names]
    rw [hAccount, hLogs.saved, Option.isSome_or]
    simp [(hStored.balances p hp).1]

end GameSession

------------------------------------------------------------
-- Rooms
------------------------------------------------------------

namespace Room

variable {room after : Room}
variable {world world' : World}
variable {users : UserRepository}
variable {slack : Nat}

/- The session of the room, if there is one, has the slack. -/
def Slack
    (room : Room)
    (slack : Nat) : Prop :=
  ∀ s ∈ room.gameSession, s.Slack slack

/- The buy-ins of a new session are the stored balances. -/
theorem buyIns_eq
    {bankrolls : KeyMap String UInt32}
    (hNodup : after.players.Nodup)
    (hEnough : 2 ≤ after.players.length)
    (hRepository : world.repository.isSome = true)
    (hLoad : after.loadPlayerBankrolls world =
      .ok bankrolls) :
    Table.buyIns
        { roster := after.roster hNodup hEnough
          names := world.names
          hasRepository := world.repository.isSome
          bankrolls := bankrolls } =
      world.holdings after.players := by
  have hPlayers : (after.roster hNodup hEnough).players =
      after.players := by
    simp [Roster.players, roster, Function.comp_def]
  unfold Table.buyIns
  dsimp only
  rw [hPlayers]
  apply List.sum_map_congr
  intro c hc
  rcases loadPlayerBankrolls_of_ok hLoad c hc with
    ⟨hRich, hFind⟩
  unfold Table.buyIn World.holding
  dsimp only
  rw [hFind, balance_of_bankroll hRepository hRich]
  rfl

/- A new session has no slack yet that is not stored. -/
theorem slack_of_created
    {session : GameSession}
    {bankrolls : KeyMap String UInt32}
    {shuffles : List Shuffle}
    (hUsers : world.repository = some users)
    (hDistinct : users.Distinct)
    (hReliable : world.Reliable)
    (hFits : world.wealth < 2 ^ 32)
    (hOrder : after.InOrder)
    (hSession : after.gameSession = some session)
    (hOwn : world.OwnAccounts after.players)
    (hLoad : after.loadPlayerBankrolls world = .ok bankrolls)
    (hFinish : Config.finish
      ⟨after.makeSession world bankrolls, .start⟩ shuffles =
        .ok session) :
    ∃ slack, session.Slack slack ∧
      (world.performSince (after.makeSession world bankrolls)
          session).holdings after.players + slack =
        world.holdings after.players := by
  have hServes := hOrder.served session hSession
  have hRepository := hReliable.repository
  have hCreate := @makeSession_eq_create after world
    bankrolls hOrder.nodup hServes.enough
  have hBuyIns := buyIns_eq hOrder.nodup hServes.enough
    hRepository hLoad
  have hTotal := World.holdings_le_wealth hUsers hDistinct
    hOrder.nodup hOwn
  have hOpening : Config.Backed
      ⟨after.makeSession world bankrolls, .start⟩
      after.players (world.holdings after.players) := by
    have hAccounted := Table.opening_accounted
      { roster := after.roster hOrder.nodup hServes.enough
        names := world.names
        hasRepository := world.repository.isSome
        bankrolls := bankrolls } (by omega)
    refine ⟨?_, hRepository, hOrder.nodup, hOwn,
      fun _ hp => hp, ?_, fun h => absurd rfl h,
      fun h => absurd rfl h⟩
    · rw [hCreate]
      exact hAccounted
    · have hNone :=
        (after.makeSession world bankrolls).storedAway_self
      have hWorth : (after.makeSession world
          bankrolls).worth = world.holdings after.players := by
        rw [hCreate, ← hBuyIns]
        rfl
      dsimp only
      rw [hWorth]
      exact Nat.le_of_eq (congrArg _ hNone)
  rcases Config.finish_run hFinish with ⟨later, run, _⟩
  rcases GameSession.slack_of_backed (hOpening.run run) with
    ⟨slack, hSlack, hFunds⟩
  refine ⟨slack, hSlack, ?_⟩
  have hStored := stored_of_created hOrder hSession hReliable
    hOwn hLoad hFinish
  have hNew : (after.makeSession world bankrolls).Attached
      world := ⟨rfl, rfl⟩
  have hAttached := GameSession.Attached.run hNew run
    (world.performSince_follows
      (after.makeSession world bankrolls) session)
  have hHoldings := hStored.holdings hAttached
  rw [hServes.players_eq] at hHoldings
  rw [hHoldings]
  exact hFunds

/- Whoever is not touched holds what he held. -/
theorem holdings_split
    {part all : List ConnId}
    (hAll : all.Nodup)
    (hPart : part.Nodup)
    (hSubset : part ⊆ all)
    (hOwn : world.OwnAccounts all)
    (hNames : world'.names = world.names)
    (hSpares : world.Spares part world') :
    world'.holdings all + world.holdings part =
      world.holdings all + world'.holdings part := by
  have hHere := List.sum_map_split hAll hPart hSubset
    world.holding
  have hThere := List.sum_map_split hAll hPart hSubset
    world'.holding
  have hOthers :
      (all.map fun c =>
        if c ∈ part then 0 else world'.holding c).sum =
      (all.map fun c =>
        if c ∈ part then 0 else world.holding c).sum := by
    apply List.sum_map_congr
    intro c hc
    split
    · rfl
    next hOut =>
      unfold World.holding
      rw [hNames, hSpares]
      intro d hd hSame
      exact hOut (hOwn d (hSubset hd) c hc hSame ▸ hd)
  unfold World.holdings
  omega

/-
  Whatever becomes of the session of a room, its slack and
  what is stored of its players grow by nothing.
-/
theorem Evolves.keepsSlack
    {everybody : List ConnId}
    (hEvolves : room.Evolves after world world')
    (hUsers : world.repository = some users)
    (hDistinct : users.Distinct)
    (hReliable : world.Reliable)
    (hFits : world.wealth < 2 ^ 32)
    (hOrder : room.InOrder)
    (hOrder' : after.InOrder)
    (hAttached : room.Attached world)
    (hStored : room.Stored world)
    (hNodup : everybody.Nodup)
    (hOwn : world.OwnAccounts everybody)
    (hBefore : room.players ⊆ everybody)
    (hAfter : after.players ⊆ everybody)
    (hSlack : room.Slack slack) :
    ∃ rest, after.Slack rest ∧
      world'.holdings everybody + rest ≤
        world.holdings everybody + slack := by
  cases hEvolves with
  | rested hSession hTold =>
      rcases hTold with ⟨_, rfl⟩
      refine ⟨slack, fun s hs => ?_, Nat.le_refl _⟩
      rw [hSession] at hs
      exact hSlack s hs
  | @called s t called e pending shuffles hSession hOk hFinish
      hKept hTold =>
      have hServes := hOrder.served s hSession
      have hThere := hAttached s hSession
      rcases hTold with ⟨_, rfl⟩
      rcases (hSlack s hSession).call hReliable
          (hStored s hSession) hThere hOk hFinish with
        ⟨rest, hRest, hHoldings⟩
      rcases hServes.played with ⟨table, trace, played⟩
      rcases GameSession.run_of_call hOk hFinish with
        ⟨later, run⟩
      have hSpares := GameSession.run_spares run hReliable
        played.seated
        (hThere.hasRepository.trans hReliable.repository)
        hThere.names (List.Subset.refl _)
      rw [hServes.players_eq] at hSpares hHoldings
      have hSplit := holdings_split hNodup hOrder.nodup
        hBefore hOwn (world.performSince_follows s t).names
        hSpares
      refine ⟨rest, fun u hu => ?_, ?_⟩
      · rw [hKept u hu]
        exact hRest
      · change (world.performSince s t).holdings everybody +
          rest ≤ _
        omega
  | @created told bankrolls session shuffles hNone hTold hLoad
      hFinish hSession hSent =>
      have hServes := hOrder'.served session hSession
      rcases hSent with ⟨_, rfl⟩
      have hTable : told.repository = some users := by
        rcases hTold with ⟨_, rfl⟩
        exact hUsers
      have hSame : told.holdings = world.holdings ∧
          told.wealth = world.wealth := by
        rcases hTold with ⟨_, rfl⟩
        exact ⟨rfl, rfl⟩
      have hOwn' : told.OwnAccounts everybody := by
        unfold World.OwnAccounts
        rw [hTold.follows.names]
        exact hOwn
      have hHere : told.OwnAccounts after.players :=
        fun c hc d hd => hOwn' c (hAfter hc) d (hAfter hd)
      have hTold' := hTold.follows.reliable hReliable
      rcases slack_of_created hTable hDistinct hTold'
          (hSame.2 ▸ hFits) hOrder' hSession hHere hLoad
          hFinish with
        ⟨rest, hRest, hHoldings⟩
      rcases Config.finish_run hFinish with ⟨later, run, _⟩
      have hSeated : Config.Seated
          ⟨after.makeSession told bankrolls, .start⟩ := by
        rw [makeSession_eq_create bankrolls hOrder'.nodup
          hServes.enough]
        exact Table.opening_seated _
      have hSpares : told.Spares after.players
          (told.performSince (after.makeSession told bankrolls)
            session) :=
        GameSession.run_spares run hTold' hSeated
          hTold'.repository rfl
          (List.Subset.refl after.players)
      have hSplit := holdings_split hNodup hOrder'.nodup hAfter
        hOwn' (World.performSince_follows _ _ _).names hSpares
      refine ⟨rest, fun u hu => ?_, ?_⟩
      · rw [hSession] at hu
        cases hu
        exact hRest
      · rw [hSame.1] at hSplit hHoldings
        change (told.performSince
            (after.makeSession told bankrolls)
              session).holdings everybody + rest ≤ _
        omega

end Room

------------------------------------------------------------
-- Lobbies
------------------------------------------------------------

namespace Lobby

variable {lobby left new : Lobby}
variable {ptr : RoomPtr}
variable {room after : Room}
variable {player : ConnId}
variable {users : UserRepository}
variable {bound : Nat}

/-
  All that is stored and the slack of every session are
  within the bound.
-/
def Funded
    (lobby : Lobby)
    (bound : Nat) : Prop :=
  ∃ slack : RoomPtr → Nat,
    (∀ ptr room, lobby.Holds ptr room →
      room.Slack (slack ptr)) ∧
    lobby.world.wealth +
      ((List.range lobby.heap.length).map slack).sum ≤ bound

/- One room is written back, for these connections. -/
theorem Rewrites.funded
    {everybody : List ConnId}
    (hRewrites : lobby.Rewrites ptr room after new)
    (hUsers : lobby.world.repository = some users)
    (hDistinct : users.Distinct)
    (hReliable : lobby.world.Reliable)
    (hFits : bound < 2 ^ 32)
    (hAttached : room.Attached lobby.world)
    (hStored : room.Stored lobby.world)
    (hNodup : everybody.Nodup)
    (hOwn : lobby.world.OwnAccounts everybody)
    (hBefore : room.players ⊆ everybody)
    (hAfter : after.players ⊆ everybody)
    (hFunded : lobby.Funded bound) :
    new.Funded bound := by
  rcases hFunded with ⟨slack, hSlack, hBound⟩
  have hEvolves := hRewrites.evolves
  rcases hEvolves.keepsSlack hUsers hDistinct hReliable
      (by omega) hRewrites.before hRewrites.inOrder hAttached
      hStored hNodup hOwn hBefore hAfter
      (hSlack ptr room hRewrites.holds) with
    ⟨rest, hRest, hHoldings⟩
  have hSpares : lobby.world.Spares everybody new.world := by
    intro username hNobody
    refine hEvolves.spares hRewrites.before hRewrites.inOrder
      hReliable hAttached username fun c hc => hNobody c ?_
    rcases List.mem_append.mp hc with hOld | hNew
    · exact hBefore hOld
    · exact hAfter hNew
  have hExchange := World.wealth_exchange hUsers hDistinct
    hEvolves.follows.names hEvolves.credentials hNodup hOwn
    hSpares
  have hPtr : ptr ∈ List.range lobby.heap.length :=
    List.mem_range.mpr (List.getElem?_eq_some_iff.mp
      hRewrites.holds.2).1
  have hSum := List.sum_map_exchange
    (f := Function.update slack ptr rest) (g := slack)
    List.nodup_range hPtr
    (fun q _ hNe => Function.update_of_ne hNe _ _)
  rw [Function.update_self] at hSum
  refine ⟨Function.update slack ptr rest, ?_, ?_⟩
  · rintro q other ⟨hMem, hAt⟩
    rw [hRewrites.heap] at hAt
    by_cases hEq : q = ptr
    · subst hEq
      rw [List.getElem?_set_self (List.mem_range.mp hPtr)]
        at hAt
      cases hAt
      rw [Function.update_self]
      exact hRest
    · rw [List.getElem?_set_ne (Ne.symm hEq)] at hAt
      rw [Function.update_of_ne hEq]
      exact hSlack q other ⟨hRewrites.rooms hMem, hAt⟩
  · rw [hRewrites.heap, List.length_set]
    omega

/- A new room has no session. -/
theorem Funded.makeRoom
    {name : String}
    {maxPlayers : UInt8}
    (hTidy : lobby.Tidy)
    (hFunded : lobby.Funded bound) :
    (lobby.makeRoom name maxPlayers player).Funded bound := by
  rcases hFunded with ⟨slack, hSlack, hBound⟩
  have hLength : (lobby.makeRoom name maxPlayers
      player).heap.length = lobby.heap.length + 1 := by
    simp [Lobby.makeRoom]
  refine ⟨Function.update slack lobby.heap.length 0, ?_, ?_⟩
  · rintro q other ⟨hMem, hAt⟩
    rcases List.mem_append.mp hMem with hOld | hNew
    · rcases hTidy.kept q hOld with ⟨kept, hKept, _⟩
      have hLt := (List.getElem?_eq_some_iff.mp hKept).1
      rw [Function.update_of_ne (Nat.ne_of_lt hLt)]
      have hSame : lobby.heap[q]? = some other := by
        rw [← hAt]
        exact (List.getElem?_append_left hLt).symm
      exact hSlack q other ⟨hOld, hSame⟩
    · rw [List.mem_singleton.mp hNew] at hAt
      rw [(lobby.holds_makeRoom name maxPlayers player).2]
        at hAt
      cases hAt
      intro s hs
      cases hs
  · rw [hLength, List.range_succ, List.map_append,
      List.sum_append, List.map_singleton,
      List.sum_singleton, Function.update_self]
    have hSame : (List.range lobby.heap.length).map
          (Function.update slack lobby.heap.length 0) =
        (List.range lobby.heap.length).map slack := by
      apply List.map_congr_left
      intro q hq
      exact Function.update_of_ne
        (Nat.ne_of_lt (List.mem_range.mp hq)) _ _
    rw [hSame]
    exact hBound

theorem Departs.funded
    {shuffles : List Shuffle}
    (hDeparts : lobby.Departs player shuffles left)
    (hTidy : lobby.Tidy)
    (hUsers : lobby.world.repository = some users)
    (hDistinct : users.Distinct)
    (hReliable : lobby.world.Reliable)
    (hFits : bound < 2 ^ 32)
    (hAttached : lobby.Attached)
    (hStored : lobby.Stored)
    (hOwn : lobby.OwnAccounts)
    (hFunded : lobby.Funded bound) :
    left.Funded bound := by
  rcases hDeparts.rewrites hTidy with
    ⟨_, rfl⟩ | ⟨ptr, room, after, hRewrites, _, hPlayers⟩
  · exact hFunded
  · have hHolds := hRewrites.holds
    refine hRewrites.funded hUsers hDistinct hReliable hFits
      (hAttached ptr room hHolds) (hStored ptr room hHolds)
      hRewrites.before.nodup (hOwn.of_holds hHolds)
      (List.Subset.refl _) ?_ hFunded
    rw [hPlayers]
    exact List.erase_subset

theorem Arrives.funded
    {shuffles : List Shuffle}
    (hArrives : lobby.Arrives player shuffles ptr new)
    (hUsers : lobby.world.repository = some users)
    (hDistinct : users.Distinct)
    (hReliable : lobby.world.Reliable)
    (hFits : bound < 2 ^ 32)
    (hOwn : new.OwnAccounts)
    (hFunded : lobby.Funded bound) :
    new.Funded bound := by
  rcases hArrives.rewrites with
    ⟨room, after, hRewrites, hRooms, hNone, hPlayers⟩
  have hHere := hOwn.of_holds
    (hRewrites.holds_new hRooms).1
  unfold World.OwnAccounts at hHere
  rw [hRewrites.evolves.follows.names] at hHere
  -- There is no session yet that could have stored anything.
  have hNobody : ∀ P : GameSession → Prop,
      ∀ s ∈ room.gameSession, P s := by
    intro P s hs
    rw [hNone] at hs
    cases hs
  refine hRewrites.funded hUsers hDistinct hReliable hFits
    (hNobody _) (hNobody _) hRewrites.inOrder.nodup hHere ?_
    (List.Subset.refl _) hFunded
  rw [hPlayers]
  exact List.subset_append_left _ _

theorem Plays.funded
    (hPlays : lobby.Plays new)
    (hTidy : lobby.Tidy)
    (hUsers : lobby.world.repository = some users)
    (hDistinct : users.Distinct)
    (hReliable : lobby.world.Reliable)
    (hFits : bound < 2 ^ 32)
    (hAttached : lobby.Attached)
    (hStored : lobby.Stored)
    (hOwn : lobby.OwnAccounts)
    (hFunded : lobby.Funded bound) :
    new.Funded bound := by
  rcases hPlays.rewrites hTidy with
    ⟨ptr, room, after, hRewrites, hPlayers⟩
  have hHolds := hRewrites.holds
  refine hRewrites.funded hUsers hDistinct hReliable hFits
    (hAttached ptr room hHolds) (hStored ptr room hHolds)
    hRewrites.before.nodup (hOwn.of_holds hHolds)
    (List.Subset.refl _) ?_ hFunded
  rw [hPlayers]
  exact List.Subset.refl _

theorem Moves.funded
    (hMoves : lobby.Moves new)
    (hTidy : lobby.Tidy)
    (hUsers : lobby.world.repository = some users)
    (hDistinct : users.Distinct)
    (hReliable : lobby.world.Reliable)
    (hFits : bound < 2 ^ 32)
    (hAttached : lobby.Attached)
    (hStored : lobby.Stored)
    (hOwn : lobby.OwnAccounts)
    (hOwn' : new.OwnAccounts)
    (hFunded : lobby.Funded bound) :
    new.Funded bound := by
  cases hMoves with
  | nothing => exact hFunded
  | leaves hDeparts =>
      exact hDeparts.funded hTidy hUsers hDistinct hReliable
        hFits hAttached hStored hOwn hFunded
  | enters hDeparts hArrives =>
      have hLeft := hDeparts.funded hTidy hUsers hDistinct
        hReliable hFits hAttached hStored hOwn hFunded
      have hHere := (hDeparts.attached hTidy
        hAttached).1.reliable hReliable
      rcases World.users_of_credentials hUsers hDistinct
          (hDeparts.credentials hTidy) with
        ⟨after, hAfter, hStill, _⟩
      exact hArrives.funded hAfter hStill hHere hFits hOwn'
        hLeft
  | makes hDeparts hArrives =>
      have hLeft := hDeparts.funded hTidy hUsers hDistinct
        hReliable hFits hAttached hStored hOwn hFunded
      have hHere := (hDeparts.attached hTidy
        hAttached).1.reliable hReliable
      rcases World.users_of_credentials hUsers hDistinct
          (hDeparts.credentials hTidy) with
        ⟨after, hAfter, hStill, _⟩
      exact hArrives.funded hAfter hStill hHere hFits hOwn'
        (hLeft.makeRoom (hDeparts.tidy hTidy))
  | plays hPlays =>
      exact hPlays.funded hTidy hUsers hDistinct hReliable
        hFits hAttached hStored hOwn hFunded

section Runs

variable {world : World}
variable {registry : Option (List ConnId)}
variable {trace : List (Lobby × Call)}

/-
  While seated players have accounts of their own and no
  update fails, no run of the lobby stores more chips in all
  than were stored when it began.
-/
theorem Run.wealth_le
    (run : Run world registry trace lobby)
    (hUsers : world.repository = some users)
    (hDistinct : users.Distinct)
    (hReliable : users.Reliable)
    (hFits : users.total < 2 ^ 32)
    (hOwn : ∀ x ∈ trace, x.1.OwnAccounts)
    (hEnd : lobby.OwnAccounts) :
    ∃ after, lobby.world.repository = some after ∧
      after.total ≤ users.total := by
  have hWorld : world.Reliable := by
    refine ⟨by rw [hUsers]; rfl, fun found hFound => ?_⟩
    rw [hUsers] at hFound
    cases hFound
    exact hReliable
  have hKeep : ∀ (lobby : Lobby) (call : Call) (new : Lobby),
      (lobby.Tidy ∧ world.Follows lobby.world ∧
        lobby.Attached ∧
        lobby.world.credentials = world.credentials ∧
        (lobby.OwnAccounts → lobby.Stored ∧
          lobby.Funded users.total)) →
      lobby.OwnAccounts →
      lobby.step call = .ok new →
      (new.Tidy ∧ world.Follows new.world ∧ new.Attached ∧
        new.world.credentials = world.credentials ∧
        (new.OwnAccounts → new.Stored ∧
          new.Funded users.total)) := by
    rintro lobby call new
      ⟨hTidy, hFollows, hAttached, hSame, hInside⟩ hHere hOk
    have hMoves := moves_of_ok hTidy hOk
    rcases hMoves.attached hTidy hAttached with
      ⟨hNext, hNew⟩
    refine ⟨hTidy.step hOk, hFollows.trans hNext, hNew,
      (step_credentials hTidy hOk).trans hSame,
      fun hThere => ?_⟩
    rcases hInside hHere with ⟨hStored, hFunded⟩
    rcases World.users_of_credentials hUsers hDistinct hSame
      with ⟨now, hNow, hStill, _⟩
    have hStays := hFollows.reliable hWorld
    exact ⟨hMoves.stored hTidy (hTidy.step hOk) hStays
        hAttached hHere hThere hStored,
      hMoves.funded hTidy hNow hStill hStays hFits hAttached
        hStored hHere hThere hFunded⟩
  have hNobody : ∀ P : Room → Prop,
      (opening world registry).Each P := by
    rintro P ptr room ⟨hMem, _⟩
    cases hMem
  have hOpening : (opening world registry).Funded
      users.total := by
    refine ⟨fun _ => 0, fun ptr room hHolds => ?_, ?_⟩
    · exact absurd hHolds.1 List.not_mem_nil
    · change world.wealth + 0 ≤ users.total
      unfold World.wealth
      rw [hUsers]
      exact Nat.le_refl _
  rcases Transition.Run.invariant hKeep run hOwn
      ⟨opening_tidy world registry, World.Follows.refl _,
        hNobody _, rfl, fun _ => ⟨hNobody _, hOpening⟩⟩ with
    ⟨_, _, _, hSame, hInside⟩
  rcases hInside hEnd with ⟨_, slack, _, hBound⟩
  rcases World.users_of_credentials hUsers hDistinct hSame
    with ⟨after, hAfter, _⟩
  refine ⟨after, hAfter, ?_⟩
  unfold World.wealth at hBound
  rw [hAfter] at hBound
  exact Nat.le_trans (Nat.le_add_right _ _) hBound

end Runs

/- Two sit down for a hand, and one of them leaves it. -/
def abandonedHand : List Call :=
  fullTable ++ [.leaveRoom 1
    (List.replicate 3 .unshuffled)]

theorem abandonedHand_wealth_le :
    ∃ trace lobby after,
      Run storedWorld (some [0, 1]) trace lobby ∧
        lobby.world.repository = some after ∧
        after.users.map (fun user => user.chips) =
          [1010, 980, 1000] ∧
        after.total ≤ 3000 := by
  have hPasses : Transition.passes step
      (opening storedWorld (some [0, 1])) abandonedHand
      (fun trace lobby =>
        decide ((∀ x ∈ trace, x.1.OwnAccounts) ∧
          lobby.OwnAccounts) &&
        lobby.world.repository.any fun users =>
          decide (users.users.map (fun user => user.chips) =
            [1010, 980, 1000])) = true := by
    decide +kernel
  rcases Transition.exists_run_of_passes hPasses with
    ⟨trace, lobby, run, hTest⟩
  rw [Bool.and_eq_true, decide_eq_true_eq] at hTest
  rcases hTest with ⟨⟨hOwn, hEnd⟩, hTable⟩
  rcases Run.wealth_le run rfl (by decide +kernel)
      (by decide) (by decide) hOwn hEnd with
    ⟨after, hAfter, hTotal⟩
  rw [hAfter] at hTable
  exact ⟨trace, lobby, after, run, hAfter,
    of_decide_eq_true hTable, hTotal⟩

/- All connections play with one account. -/
def sharedWorld : World where
  names := fun _ => "0"
  repository := some { users := [⟨"0", "", 1000⟩] }

/- Three hands in, the account has won from itself. -/
example :
    Transition.passes step
      (opening sharedWorld (some [0, 1]))
      (fullTable ++
        [.playerAction 0 .fold none
            (List.replicate 6 .unshuffled),
          .playerAction 1 .raise (some 40)
            (List.replicate 6 .unshuffled),
          .playerAction 0 .fold none
            (List.replicate 6 .unshuffled)])
      (fun _ lobby => lobby.world.repository.any fun users =>
        decide (users.total = 1010)) = true := by
  decide +kernel

end Lobby

end Server

end Poker

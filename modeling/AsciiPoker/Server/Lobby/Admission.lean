import AsciiPoker.Server.GameSession.FirstHand
import AsciiPoker.Server.Lobby.StoredBalances

/-
  The stored balance of a player who is let into a room.

  The bankroll check is made before the player leaves the
  room he is in, which stores his stack there, and the game
  that starts when he fills the new one posts his blind at
  once.  Nothing is checked again after that.

  Main declarations:
    * `Lobby.Admits`, `Lobby.Covers`
    * `Lobby.leavingBalance`, `Lobby.blindOnEntry`
    * `Lobby.LeavesApart`, `Lobby.StaysCovered`
    * `Lobby.Run.admission`
    * `Lobby.movedPlayer_uncovered`
-/

namespace Poker

namespace Server

open Protocol

------------------------------------------------------------
-- The Game That Starts
------------------------------------------------------------

/- Saving every stack ends with the last player's. -/
theorem GameSession.getLast?_stacksFor
    {s : GameSession}
    {others : List PlayerId}
    {p : PlayerId}
    {chips : UInt32}
    (hPlayers : s.players = others ++ [p])
    (hChips : s.chips.find p = some chips) :
    (s.stacksFor (s.account p)).getLast? = some chips := by
  unfold stacksFor
  rw [hPlayers, List.filterMap_append]
  have hLast : [p].filterMap (s.stackFor (s.account p)) =
      [chips] := by
    simp [stackFor, hChips]
  rw [hLast, List.getLast?_concat]

namespace Config

variable {c : Config}
variable {s t : GameSession}
variable {shuffles : List Shuffle}

/- A call that has something left to run runs it. -/
theorem step_of_finish
    (hOpen : c.pending ≠ .done)
    (hFinish : c.finish shuffles = .ok t) :
    ∃ shuffle d rest,
      c.step (.proceed shuffle) = .ok d ∧
        d.finish rest = .ok t := by
  cases shuffles with
  | nil =>
      unfold finish at hFinish
      rw [if_neg hOpen] at hFinish
      cases hFinish
  | cons shuffle rest =>
      unfold finish at hFinish
      rw [if_neg hOpen] at hFinish
      cases hStep : c.step (.proceed shuffle) with
      | error exn =>
          rw [hStep] at hFinish
          cases hFinish
      | ok d =>
          rw [hStep] at hFinish
          exact ⟨shuffle, d, rest, hStep, hFinish⟩

/- A call that has nothing left to run is over. -/
theorem eq_of_finish
    (hFinish : finish ⟨s, .done⟩ shuffles = .ok t) :
    s = t := by
  cases shuffles with
  | nil => exact Except.ok.inj hFinish
  | cons shuffle rest => exact Except.ok.inj hFinish

/- A session of players with the big blind has its hand. -/
theorem opened_of_finish
    (hNodup : s.players.Nodup)
    (hTwo : 2 ≤ s.players.length)
    (hDealer : s.dealerIndex < s.players.length)
    (hRich : ∀ p ∈ s.players, BIG_BLIND ≤ s.stackOf p)
    (hRepository : s.hasRepository = true)
    (hFinish : finish ⟨s, .start⟩ shuffles = .ok t) :
    s.Opened t := by
  rcases step_of_finish (by simp) hFinish with
    ⟨first, ⟨dealt, pending⟩, rest, hStart, hRest⟩
  simp only [Config.step, ofResult_eq_ok] at hStart
  have hAsks :=
    (GameSession.opened_of_start hRepository hStart).2
  subst hAsks
  rcases step_of_finish (by simp) hRest with
    ⟨second, ⟨asked, next⟩, last, hAsk, hLast⟩
  simp only [Config.step, ofResult_eq_ok] at hAsk
  rcases GameSession.opened_of_asked hNodup hTwo hDealer hRich
      hRepository hStart hAsk with
    ⟨hOpened, hDone⟩
  subst hDone
  rw [← eq_of_finish hLast]
  exact hOpened

end Config

------------------------------------------------------------
-- Bankrolls
------------------------------------------------------------

namespace Room

variable {room after : Room}
variable {world world' : World}
variable {player : ConnId}
variable {shuffles : List Shuffle}

/- A bankroll is a stored balance, or nothing. -/
theorem bankroll_eq
    (hRepository : world.repository.isSome = true)
    (c : ConnId) :
    bankroll world c =
      (world.balance (world.names c)).getD 0 := by
  unfold bankroll World.balance
  cases hUsers : world.repository with
  | none =>
      rw [hUsers] at hRepository
      cases hRepository
  | some users =>
      dsimp only [World.storedChips]
      cases hFind : users.findByUsername (world.names c) with
      | none => simp [hFind]
      | some user => simp [hFind]

/- Connections on one account have one bankroll. -/
theorem bankroll_congr
    {c d : ConnId}
    (hSame : noCase (world.names c) = noCase (world.names d)) :
    bankroll world c = bankroll world d := by
  have hFind : ∀ users : UserRepository,
      users.findByUsername (world.names c) =
        users.findByUsername (world.names d) := by
    intro users
    unfold UserRepository.findByUsername
    congr 1
    funext user
    apply decide_eq_decide.mpr
    unfold UserRepository.Matches
    rw [hSame]
  unfold bankroll World.storedChips
  simp only [hFind]

/- Messages are about no balance. -/
theorem bankroll_of_told
    (hTold : world.Told world')
    (c : ConnId) :
    bankroll world' c = bankroll world c := by
  rcases hTold with ⟨_, rfl⟩
  rfl

/- A game that does not start lacks a player's big blind. -/
theorem loadPlayerBankrolls_of_error
    {code : ErrorCode}
    (hLoad : room.loadPlayerBankrolls world = .error code) :
    ∃ c ∈ room.players, bankroll world c < BIG_BLIND := by
  by_contra hNobody
  push Not at hNobody
  have hLoads : ∀ (connections : List ConnId)
      (loaded : KeyMap String UInt32),
      connections ⊆ room.players →
      ∃ bankrolls, connections.foldlM
        (fun bankrolls connection =>
          let chips := bankroll world connection
          if chips < BIG_BLIND then
            Except.error ErrorCode.notEnoughChips
          else
            Except.ok
              (bankrolls.set (world.names connection) chips))
        loaded = Except.ok bankrolls := by
    intro connections
    induction connections with
    | nil => exact fun loaded _ => ⟨loaded, rfl⟩
    | cons c rest ih =>
        intro loaded hSubset
        rw [List.cons_subset] at hSubset
        have hRich := hNobody c hSubset.1
        rw [List.foldlM_cons]
        dsimp only
        rw [if_neg hRich]
        exact ih _ hSubset.2
  rcases hLoads room.players .empty (List.Subset.refl _) with
    ⟨bankrolls, hOk⟩
  unfold loadPlayerBankrolls at hLoad
  rw [hOk] at hLoad
  cases hLoad

/- The last seat is free, and its players have the blind. -/
def AwaitsOne
    (room : Room)
    (world : World) : Prop :=
  room.players.length + 1 = room.maxPlayers.toNat ∧
    ∀ q ∈ room.players, BIG_BLIND ≤ bankroll world q

instance
    (room : Room)
    (world : World) :
    Decidable (room.AwaitsOne world) :=
  inferInstanceAs (Decidable (_ ∧ _))

/- A player whose room starts no game is only announced. -/
theorem addPlayer_starts
    (hAdd : room.addPlayer world player shuffles =
      .ok (true, after, world')) :
    (¬ (room.AwaitsOne world ∧
          BIG_BLIND ≤ bankroll world player) ∧
        world.Told world') ∨
      (room.AwaitsOne world ∧
        ∃ told bankrolls session,
          world.Told told ∧
          after.players = room.players ++ [player] ∧
          after.loadPlayerBankrolls told = .ok bankrolls ∧
          Config.finish
            ⟨after.makeSession told bankrolls, .start⟩
            shuffles = .ok session ∧
          world' = told.performSince
            (after.makeSession told bankrolls) session) := by
  unfold addPlayer at hAdd
  split at hAdd
  · cases hAdd
  rename_i hClosed
  split at hAdd
  · cases hAdd
  have hTold := notifyAllAboutJoined_told
    { room with players := room.players ++ [player] } world
  dsimp only at hAdd
  rw [List.length_append, List.length_singleton] at hAdd
  split at hAdd
  · rename_i hLast
    rcases Except.bind_eq_ok.mp hAdd with
      ⟨⟨error, started, w⟩, hStart, hRest⟩
    cases hRest
    unfold startGame at hStart
    rw [if_neg hClosed] at hStart
    split at hStart
    · rename_i code hLoad
      cases hStart
      refine Or.inl ⟨?_, hTold⟩
      rintro ⟨⟨_, hRich⟩, hOwn⟩
      rcases loadPlayerBankrolls_of_error hLoad with
        ⟨c, hc, hPoor⟩
      rw [bankroll_of_told hTold] at hPoor
      rcases List.mem_append.mp hc with hHere | hNew
      · exact UInt32.not_lt.mpr (hRich c hHere) hPoor
      · rw [List.mem_singleton.mp hNew] at hPoor
        exact UInt32.not_lt.mpr hOwn hPoor
    · rename_i bankrolls hLoad
      rcases Except.bind_eq_ok.mp hStart with
        ⟨session, hFinish, hDone⟩
      cases hDone
      have hLoads := loadPlayerBankrolls_of_ok hLoad
      refine Or.inr ⟨⟨hLast, fun q hq => ?_⟩, _, bankrolls,
        session, hTold, rfl, hLoad, hFinish, rfl⟩
      have hRich := (hLoads q (List.mem_append_left _ hq)).1
      rw [bankroll_of_told hTold] at hRich
      exact hRich
  · rename_i hOpen
    cases hAdd
    exact Or.inl ⟨fun hAll => hOpen hAll.1.1, hTold⟩

/- The stacks of a session that is made are the bankrolls. -/
theorem stackOf_makeSession
    {bankrolls : KeyMap String UInt32}
    {c : ConnId}
    (hLoads : Loads world room.players bankrolls)
    (hMem : c ∈ room.players) :
    (room.makeSession world bankrolls).stackOf c =
      bankroll world c := by
  have hFind := (hLoads c hMem).2
  simp [GameSession.stackOf, GameSession.bankrollOf,
    makeSession, hFind]

/- A player who fills a room has posted his blind. -/
theorem bankroll_of_filled
    {others : List ConnId}
    {bankrolls : KeyMap String UInt32}
    {session : GameSession}
    (hNodup : room.players.Nodup)
    (hPlayers : room.players = others ++ [player])
    (hOthers : 1 ≤ others.length)
    (hReliable : world.Reliable)
    (hLoad : room.loadPlayerBankrolls world = .ok bankrolls)
    (hFinish : Config.finish
      ⟨room.makeSession world bankrolls, .start⟩ shuffles =
        .ok session) :
    (bankroll (world.performSince
          (room.makeSession world bankrolls) session)
        player).toNat +
        (if others.length ≤ 2 then BIG_BLIND else 0).toNat =
      (bankroll world player).toNat := by
  have hLoads := loadPlayerBankrolls_of_ok hLoad
  have hMem : player ∈ room.players := by
    rw [hPlayers]
    simp
  have hTwo : 2 ≤ room.players.length := by
    rw [hPlayers, List.length_append, List.length_singleton]
    omega
  have hStack := stackOf_makeSession hLoads hMem
  have hRich := (hLoads player hMem).1
  have hOpened : (room.makeSession world bankrolls).Opened
      session := by
    refine Config.opened_of_finish hNodup hTwo
      (Nat.lt_of_lt_of_le (show 0 < 2 by decide) hTwo) ?_
      hReliable.repository hFinish
    intro p hp
    rw [stackOf_makeSession hLoads hp]
    exact (hLoads p hp).1
  -- His stack is what is stored for him last.
  rcases Option.isSome_iff_exists.mp
      (hOpened.chips player hMem) with
    ⟨chips, hChips⟩
  have hLast := GameSession.getLast?_stacksFor
    (hOpened.players.trans hPlayers) hChips
  have hAccount : session.account player =
      noCase (world.names player) := by
    unfold GameSession.account
    rw [hOpened.names]
    rfl
  rw [hAccount] at hLast
  have hFollows := world.performSince_follows
    (room.makeSession world bankrolls) session
  have hStored : bankroll (world.performSince
      (room.makeSession world bankrolls) session) player =
        chips := by
    rw [bankroll_eq (hFollows.reliable hReliable).repository,
      hFollows.names,
      World.performSince_balance hOpened.logs hReliable,
      hLast,
      balance_of_bankroll hReliable.repository hRich]
    rfl
  -- What he has put in is his blind.
  have hBlind := GameSession.blindPosted_last hNodup hPlayers
    hOthers rfl (hStack ▸ hRich)
  have hHolding := hOpened.holding player hMem
  unfold GameSession.holding at hHolding
  rw [hOpened.contributed player hMem, hBlind, hStack]
    at hHolding
  have hGet : session.chips.get player = chips := by
    simp [KeyMap.get, hChips]
  rw [hStored, ← hGet]
  exact hHolding

end Room

------------------------------------------------------------
-- Coming and Going
------------------------------------------------------------

namespace Lobby

variable {lobby left new : Lobby}
variable {player c : ConnId}
variable {ptr : RoomPtr}
variable {room : Room}
variable {shuffles : List Shuffle}

/- A player is let into the room at `ptr`. -/
inductive Admits
    (lobby : Lobby)
    (player : ConnId)
    (ptr : RoomPtr)
    (new : Lobby) : Prop
  | creates
      {name : String}
      {maxPlayers : UInt8}
      {draws : Draws}
      (hCreate : lobby.createRoom name maxPlayers player
        draws = .ok (some ptr, new))
  | joins
      {roomId : UInt64}
      {draws : Draws}
      (hJoin : lobby.joinRoom roomId player draws =
        .ok (none, new))
      (hSeat : new.findRoomByPlayer player = some ptr)
      (hNew : lobby.findRoomByPlayer player ≠ some ptr)

/- The stored balance pays the big blind. -/
def Covers
    (lobby : Lobby)
    (player : ConnId) : Prop :=
  ∃ balance,
    lobby.accountChipsFor (lobby.world.names player) =
      some balance ∧ BIG_BLIND ≤ balance

/- The session a player sits in. -/
def sessionOf
    (lobby : Lobby)
    (player : ConnId) : Option GameSession := do
  let ptr ← lobby.findRoomByPlayer player
  let room ← lobby.heap[ptr]?
  room.gameSession

/- What is stored for a player once he has left his room. -/
def leavingBalance
    (lobby : Lobby)
    (player : ConnId) : UInt32 :=
  match lobby.sessionOf player with
  | none => Room.bankroll lobby.world player
  | some s => s.chips.get player

/-
  The blind of a player who comes to the room at `ptr`: the
  big one if he fills it and sits in its second or third seat.
-/
def blindOnEntry
    (lobby : Lobby)
    (ptr : RoomPtr) : UInt32 :=
  match lobby.heap[ptr]? with
  | none => 0
  | some room =>
      if room.AwaitsOne lobby.world ∧
          room.players.length ≤ 2 then
        BIG_BLIND
      else
        0

/- The others in the session a player sits in. -/
def opponents
    (lobby : Lobby)
    (player : ConnId) : List ConnId :=
  match lobby.sessionOf player with
  | none => []
  | some s => s.players.erase player

/- The players in the room at `ptr`. -/
def playersAt
    (lobby : Lobby)
    (ptr : RoomPtr) : List ConnId :=
  match lobby.heap[ptr]? with
  | none => []
  | some room => room.players

/-
  The others in the session that the player leaves have the
  account neither of him nor of anybody he comes to.
-/
def LeavesApart
    (lobby : Lobby)
    (player : ConnId)
    (ptr : RoomPtr) : Prop :=
  ∀ q ∈ lobby.opponents player,
    ∀ c ∈ player :: lobby.playersAt ptr,
      noCase (lobby.world.names q) ≠
        noCase (lobby.world.names c)

instance
    (lobby : Lobby)
    (player : ConnId)
    (ptr : RoomPtr) :
    Decidable (lobby.LeavesApart player ptr) :=
  inferInstanceAs (Decidable (∀ q ∈ lobby.opponents player,
    ∀ c ∈ player :: lobby.playersAt ptr, _))

/-
  What the player leaves with pays the big blind, also after
  the blind he posts at once in the room at `ptr`.
-/
def StaysCovered
    (lobby : Lobby)
    (player : ConnId)
    (ptr : RoomPtr) : Prop :=
  lobby.LeavesApart player ptr ∧
    BIG_BLIND.toNat + (lobby.blindOnEntry ptr).toNat ≤
      (lobby.leavingBalance player).toNat

instance
    (lobby : Lobby)
    (player : ConnId)
    (ptr : RoomPtr) :
    Decidable (lobby.StaysCovered player ptr) :=
  inferInstanceAs (Decidable (_ ∧ _))

/- Whoever is covered has a bankroll of the big blind. -/
theorem covers_iff
    (hRepository : lobby.world.repository.isSome = true) :
    lobby.Covers player ↔
      BIG_BLIND ≤ Room.bankroll lobby.world player := by
  constructor
  · rintro ⟨balance, hBalance, hRich⟩
    have hHere : lobby.world.balance
        (lobby.world.names player) = some balance := hBalance
    rw [Room.bankroll_eq hRepository, hHere]
    exact hRich
  · intro hRich
    exact ⟨_, Room.balance_of_bankroll hRepository hRich,
      hRich⟩

/- The bankroll check looks at the stored balance. -/
theorem bankroll_of_checkPlayerBankroll
    (hRepository : lobby.world.repository.isSome = true)
    (hCheck : lobby.checkPlayerBankroll player = none) :
    BIG_BLIND ≤ Room.bankroll lobby.world player := by
  unfold checkPlayerBankroll at hCheck
  unfold Room.bankroll
  cases hUsers : lobby.world.repository with
  | none =>
      rw [hUsers] at hRepository
      cases hRepository
  | some users =>
      rw [hUsers] at hCheck
      dsimp only at hCheck ⊢
      split at hCheck
      · cases hCheck
      · rename_i hEnough
        exact UInt32.not_lt.mp hEnough

/- A player who sits in a room sits in its session. -/
theorem Tidy.sessionOf_eq
    (hTidy : lobby.Tidy)
    (hHolds : lobby.Holds ptr room)
    (hMem : player ∈ room.players) :
    lobby.sessionOf player = room.gameSession := by
  have hFind := (hTidy.find_iff hHolds player).mpr hMem
  simp [sessionOf, findRoomByPlayer, hFind, hHolds.2]

/- A player outside sits in no session. -/
theorem sessionOf_of_outside
    (hFree : lobby.playerRooms.find player = none) :
    lobby.sessionOf player = none := by
  simp [sessionOf, findRoomByPlayer, hFree]

------------------------------------------------------------
-- Leaving
------------------------------------------------------------

/- A departure writes to no accounts but its session's. -/
theorem Departs.spares
    {username : String}
    (hDeparts : lobby.Departs player shuffles left)
    (hTidy : lobby.Tidy)
    (hReliable : lobby.world.Reliable)
    (hAttached : lobby.Attached)
    (hNobody : ∀ q ∈ player :: lobby.opponents player,
      noCase (lobby.world.names q) ≠ noCase username) :
    left.world.balance username =
      lobby.world.balance username := by
  cases hDeparts with
  | outside hFree => rfl
  | @leaving ptr room after removed world left hHolds hMem
      hRemove hTold =>
      rcases hTold with ⟨w, hSent, rfl⟩
      rw [(dropIfEmpty_frame _ ptr after).2.2] at hSent
      dsimp only
      rw [hSent.balance]
      dsimp only [setRoom]
      have hHere := hTidy.sessionOf_eq hHolds hMem
      have hOrder := (hTidy.of_holds hHolds).1
      cases hSession : room.gameSession with
      | none =>
          exact congrFun (Room.removePlayer_tells hMem hSession
            hRemove).2.balance username
      | some s =>
          rcases Room.removePlayer_of_ok hOrder hMem
              hRemove with
            ⟨hAfter, session, hShape⟩
          have hEvolves := Room.removePlayer_evolves hOrder
            hMem hRemove
          refine hEvolves.spares hOrder hAfter hReliable
            (hAttached ptr room hHolds) username ?_
          intro c hc
          have hc' : c ∈ room.players := by
            rcases List.mem_append.mp hc with hOld | hNew
            · exact hOld
            · rw [hShape] at hNew
              exact List.mem_of_mem_erase hNew
          apply hNobody
          by_cases hEq : c = player
          · rw [hEq]
            exact List.mem_cons_self
          · refine List.mem_cons_of_mem _ ?_
            unfold opponents
            rw [hHere, hSession]
            dsimp only
            rw [(hOrder.served s hSession).players_eq]
            exact (List.mem_erase_of_ne hEq).mpr hc'

/- What is stored for a player after he has left. -/
theorem Departs.bankroll
    (hDeparts : lobby.Departs player shuffles left)
    (hTidy : lobby.Tidy)
    (hReliable : lobby.world.Reliable)
    (hAttached : lobby.Attached)
    (hRich : BIG_BLIND ≤ Room.bankroll lobby.world player)
    (hApart : ∀ q ∈ lobby.opponents player,
      noCase (lobby.world.names q) ≠
        noCase (lobby.world.names player)) :
    Room.bankroll left.world player =
      lobby.leavingBalance player := by
  have hFollows := (hDeparts.attached hTidy hAttached).1
  have hStored := Room.balance_of_bankroll
    hReliable.repository hRich
  rw [Room.bankroll_eq
      (hFollows.reliable hReliable).repository,
    hFollows.names]
  unfold leavingBalance
  cases hDeparts with
  | outside hFree =>
      rw [sessionOf_of_outside hFree, hStored]
      rfl
  | @leaving ptr room after removed world left hHolds hMem
      hRemove hTold =>
      have hHere := hTidy.sessionOf_eq hHolds hMem
      cases hSession : room.gameSession with
      | none =>
          have hTells :=
            (Room.removePlayer_tells hMem hSession hRemove).2
          rcases hTold with ⟨w, hSent, rfl⟩
          rw [(dropIfEmpty_frame _ ptr after).2.2] at hSent
          rw [hHere, hSession]
          dsimp only
          rw [hSent.balance]
          dsimp only [setRoom]
          rw [hTells.balance, hStored]
          rfl
      | some s =>
          have hServes :=
            (hTidy.of_holds hHolds).1.served s hSession
          have hGone := Departs.balance
            (Departs.leaving hHolds hMem hRemove hTold) hTidy
            hReliable hAttached hHolds hSession hMem
            (by
              intro q hq hSame
              by_contra hOther
              refine hApart q ?_ hSame
              unfold opponents
              rw [hHere, hSession]
              dsimp only
              rw [hServes.players_eq]
              exact (List.mem_erase_of_ne hOther).mpr hq)
            (by rw [hStored]; rfl)
          rw [hHere, hSession, hGone.1]
          rfl

/- No room is made by a departure. -/
theorem Departs.heap_length
    (hDeparts : lobby.Departs player shuffles left)
    (hTidy : lobby.Tidy) :
    left.heap.length = lobby.heap.length := by
  rcases hDeparts.rewrites hTidy with
    ⟨_, rfl⟩ | ⟨_, _, _, hRewrites, _, _⟩
  · rfl
  · rw [hRewrites.heap, List.length_set]

/- A room other than the one he leaves stays as it is. -/
theorem Departs.getElem?_heap
    (hDeparts : lobby.Departs player shuffles left)
    (hTidy : lobby.Tidy)
    (hNe : lobby.findRoomByPlayer player ≠ some ptr) :
    left.heap[ptr]? = lobby.heap[ptr]? := by
  rcases hDeparts.rewrites hTidy with
    ⟨_, rfl⟩ | ⟨here, room, after, hRewrites, hMem, _⟩
  · rfl
  · rw [hRewrites.heap, List.getElem?_set_ne]
    rintro rfl
    exact hNe ((hTidy.find_iff hRewrites.holds player).mpr
      hMem)

/- The blind that awaits him elsewhere stays the same. -/
theorem Departs.blindOnEntry
    (hDeparts : lobby.Departs player shuffles left)
    (hTidy : lobby.Tidy)
    (hReliable : lobby.world.Reliable)
    (hAttached : lobby.Attached)
    (hRich : BIG_BLIND ≤ Room.bankroll lobby.world player)
    (hApart : lobby.LeavesApart player ptr)
    (hNe : lobby.findRoomByPlayer player ≠ some ptr)
    (hLeft : BIG_BLIND ≤ Room.bankroll left.world player) :
    left.blindOnEntry ptr = lobby.blindOnEntry ptr := by
  have hFollows := (hDeparts.attached hTidy hAttached).1
  have hHas := (hFollows.reliable hReliable).repository
  have hRich_iff : ∀ c ∈ lobby.playersAt ptr,
      BIG_BLIND ≤ Room.bankroll left.world c ↔
        BIG_BLIND ≤ Room.bankroll lobby.world c := by
    intro c hc
    by_cases hSame : noCase (lobby.world.names player) =
        noCase (lobby.world.names c)
    · -- Somebody on his account has what he has.
      rw [← Room.bankroll_congr hSame]
      rw [← hFollows.names] at hSame
      rw [← Room.bankroll_congr hSame]
      exact ⟨fun _ => hRich, fun _ => hLeft⟩
    · have hNobody : ∀ q ∈ player :: lobby.opponents player,
          noCase (lobby.world.names q) ≠
            noCase (lobby.world.names c) := by
        intro q hq
        rcases List.mem_cons.mp hq with rfl | hOther
        · exact hSame
        · exact hApart q hOther c (List.mem_cons_of_mem _ hc)
      have hSpared := hDeparts.spares hTidy hReliable
        hAttached hNobody
      rw [Room.bankroll_eq hHas,
        Room.bankroll_eq hReliable.repository,
        hFollows.names, hSpared]
  unfold Lobby.blindOnEntry
  rw [hDeparts.getElem?_heap hTidy hNe]
  unfold playersAt at hRich_iff
  cases hAt : lobby.heap[ptr]? with
  | none => rfl
  | some room =>
      rw [hAt] at hRich_iff
      dsimp only at hRich_iff ⊢
      refine if_congr ?_ rfl rfl
      unfold Room.AwaitsOne
      rw [forall₂_congr hRich_iff]

------------------------------------------------------------
-- Arriving
------------------------------------------------------------

/- What a player who comes to a room has after that. -/
theorem Arrives.bankroll
    (hArrives : lobby.Arrives player shuffles ptr new)
    (hReliable : lobby.world.Reliable) :
    (BIG_BLIND ≤ Room.bankroll lobby.world player →
        (Room.bankroll new.world player).toNat +
            (lobby.blindOnEntry ptr).toNat =
          (Room.bankroll lobby.world player).toNat) ∧
      (¬ BIG_BLIND ≤ Room.bankroll lobby.world player →
        Room.bankroll new.world player =
          Room.bankroll lobby.world player) := by
  cases hArrives with
  | @seated room after world new hHolds hOrder hNew hFree hAdd
      hTold =>
      rcases hTold with ⟨w, hSent, rfl⟩
      have hSet : (lobby.setRoom ptr after
          world).insertPlayerRoom player ptr = _ :=
        insertPlayerRoom_of_free hFree
      rw [hSet] at hSent
      have hNow : Room.bankroll w player =
          Room.bankroll world player :=
        Room.bankroll_of_told hSent player
      dsimp only
      rw [hNow]
      unfold blindOnEntry
      rw [hHolds.2]
      dsimp only
      rcases Room.addPlayer_starts hAdd with
        ⟨hNot, hTold⟩ |
          ⟨hAwaits, told, bankrolls, session, hTold, hPlayers,
            hLoad, hFinish, rfl⟩
      · rw [Room.bankroll_of_told hTold]
        refine ⟨fun hRich => ?_, fun _ => rfl⟩
        rw [if_neg fun h => hNot ⟨h.1, hRich⟩]
        rfl
      · have hNodup : after.players.Nodup := by
          rw [hPlayers]
          exact hOrder.nodup.append (List.nodup_singleton _)
            (by simpa using hNew)
        have hOthers : 1 ≤ room.players.length := by
          have hRoomy := hOrder.roomy
          have hLast := hAwaits.1
          omega
        have hPosted := Room.bankroll_of_filled hNodup
          hPlayers hOthers
          (hTold.follows.reliable hReliable) hLoad
          hFinish
        rw [Room.bankroll_of_told hTold] at hPosted
        have hRich := (Room.loadPlayerBankrolls_of_ok hLoad
          player (by rw [hPlayers]; simp)).1
        rw [Room.bankroll_of_told hTold] at hRich
        refine ⟨fun _ => ?_, fun hPoor => absurd hRich hPoor⟩
        rw [← hPosted]
        simp only [hAwaits, true_and]

/- Who comes to a room is covered if he pays both blinds. -/
theorem Arrives.covers_iff
    (hArrives : lobby.Arrives player shuffles ptr new)
    (hReliable : lobby.world.Reliable) :
    new.Covers player ↔
      BIG_BLIND.toNat + (lobby.blindOnEntry ptr).toNat ≤
        (Room.bankroll lobby.world player).toNat := by
  have hHas : new.world.repository.isSome = true := by
    rcases hArrives.rewrites with ⟨_, _, hRewrites, _⟩
    exact hRewrites.evolves.follows.repository.trans
      hReliable.repository
  rw [Lobby.covers_iff hHas, UInt32.le_iff_toNat_le]
  rcases hArrives.bankroll hReliable with ⟨hPays, hBroke⟩
  by_cases hRich : BIG_BLIND ≤ Room.bankroll lobby.world player
  · have hPaid := hPays hRich
    omega
  · rw [hBroke hRich]
    rw [UInt32.le_iff_toNat_le] at hRich
    omega

/- Nobody waits in a room that is just made. -/
theorem Arrives.blindOnEntry_made
    {name : String}
    {maxPlayers : UInt8}
    (hArrives : (lobby.makeRoom name maxPlayers
      player).Arrives c shuffles lobby.heap.length new) :
    (lobby.makeRoom name maxPlayers player).blindOnEntry
      lobby.heap.length = 0 := by
  cases hArrives with
  | @seated room after world new hHolds hOrder hNew hFree hAdd
      hTold =>
      have hAt := hHolds.2
      simp only [makeRoom, List.getElem?_concat_length,
        Option.some.injEq] at hAt
      subst hAt
      have hRoomy := hOrder.roomy
      unfold blindOnEntry
      rw [hHolds.2]
      dsimp only
      apply if_neg
      rintro ⟨⟨hLast, _⟩, _⟩
      change 0 + 1 = maxPlayers.toNat at hLast
      change 2 ≤ maxPlayers.toNat at hRoomy
      omega

------------------------------------------------------------
-- Runs
------------------------------------------------------------

section Runs

variable {world : World}
variable {registry : Option (List ConnId)}
variable {trace : List (Lobby × Call)}

/- A player who is let in leaves his room and comes to it. -/
theorem Admits.moves
    (hAdmits : lobby.Admits player ptr new)
    (hTidy : lobby.Tidy) :
    lobby.checkPlayerBankroll player = none ∧
      ∃ (leaving starting : List Shuffle) (left : Lobby),
        lobby.Departs player leaving left ∧
        ((lobby.findRoomByPlayer player ≠ some ptr ∧
            left.Arrives player starting ptr new) ∨
          (ptr = left.heap.length ∧
            ∃ name maxPlayers,
              (left.makeRoom name maxPlayers player).Arrives
                player starting ptr new)) := by
  cases hAdmits with
  | @creates name maxPlayers draws hCreate =>
      rcases createRoom_moves hTidy hCreate with
        ⟨hNone, _⟩ | ⟨hCheck, left, hMade, hDeparts, hArrives⟩
      · cases hNone
      · cases hMade
        exact ⟨hCheck, _, _, left, hDeparts,
          Or.inr ⟨rfl, name, maxPlayers, hArrives⟩⟩
  | joins hJoin hSeat hNew =>
      rcases joinRoom_moves hTidy hJoin with
        rfl | ⟨hCheck, left, hDeparts, hStays | hComes⟩
      · exact absurd hSeat hNew
      · exact absurd rfl hStays.1
      · rcases hComes with ⟨_, other, hArrives⟩
        have hFind := hArrives.find
        rw [hSeat] at hFind
        cases hFind
        exact ⟨hCheck, _, _, left, hDeparts,
          Or.inl ⟨hNew, hArrives⟩⟩

/- What he leaves with decides whether he is covered. -/
theorem Admits.covers_iff
    (hAdmits : lobby.Admits player ptr new)
    (hTidy : lobby.Tidy)
    (hReliable : lobby.world.Reliable)
    (hAttached : lobby.Attached)
    (hApart : lobby.LeavesApart player ptr) :
    new.Covers player ↔
      BIG_BLIND.toNat + (lobby.blindOnEntry ptr).toNat ≤
        (lobby.leavingBalance player).toNat := by
  rcases hAdmits.moves hTidy with
    ⟨hCheck, leaving, starting, left, hDeparts, hComes⟩
  have hRich := bankroll_of_checkPlayerBankroll
    hReliable.repository hCheck
  have hFollows := (hDeparts.attached hTidy hAttached).1
  have hHas := hFollows.reliable hReliable
  have hLeft := hDeparts.bankroll hTidy hReliable hAttached
    hRich fun q hq => hApart q hq player List.mem_cons_self
  rcases hComes with
    ⟨hNew, hArrives⟩ | ⟨rfl, name, maxPlayers, hArrives⟩
  · rw [hArrives.covers_iff hHas, ← hLeft]
    by_cases hStill :
        BIG_BLIND ≤ Room.bankroll left.world player
    · rw [hDeparts.blindOnEntry hTidy hReliable hAttached
        hRich hApart hNew hStill]
    · rw [UInt32.le_iff_toNat_le] at hStill
      omega
  · rw [hArrives.covers_iff hHas, hArrives.blindOnEntry_made,
      ← hLeft]
    have hNone : lobby.blindOnEntry left.heap.length = 0 := by
      unfold blindOnEntry
      rw [hDeparts.heap_length hTidy, List.getElem?_length]
    rw [hNone]
    rfl

/-
  Whoever is let into a room has a stored balance of the big
  blind if what he leaves his old room with pays it, also
  after the blind of the game he starts; and only then, unless
  somebody he played with shares an account.  No update of
  the repository fails.
-/
theorem Run.admission
    (run : Run world registry trace lobby)
    (hReliable : world.Reliable)
    (hAdmits : lobby.Admits player ptr new) :
    (lobby.StaysCovered player ptr → new.Covers player) ∧
      (lobby.LeavesApart player ptr →
        new.Covers player → lobby.StaysCovered player ptr) := by
  have hTidy := run.tidy
  rcases run.attached with ⟨hFollows, hAttached⟩
  have hCovers := hAdmits.covers_iff hTidy
    (hFollows.reliable hReliable) hAttached
  exact ⟨fun ⟨hApart, hPays⟩ => (hCovers hApart).mpr hPays,
    fun hApart hEnd => ⟨hApart, (hCovers hApart).mp hEnd⟩⟩

end Runs

------------------------------------------------------------
-- A Player Who Is Moved
------------------------------------------------------------

/- Player 0 raises in a hand, and another room is open. -/
def raisedHand
    (amount : UInt32) : List Call :=
  fullTable ++
    [.createRoom "Other" 6 2 {},
      .playerAction 0 .raise (some amount)
        [.unshuffled, .unshuffled]]

/- Player 0 is moved to the other room with this balance. -/
def movesWith
    (lobby : Lobby)
    (balance : UInt32) : Bool :=
  decide (lobby.findRoomByPlayer 0 ≠ some 1) &&
  match lobby.joinRoom 2 0
      { leaving := List.replicate 4 .unshuffled } with
  | .ok (none, new) =>
      decide (new.findRoomByPlayer 0 = some 1 ∧
        new.accountChipsFor (new.world.names 0) =
          some balance)
  | .ok (some _, _) => false
  | .error _ => false

/- Whoever is moved is let in. -/
theorem admits_of_movesWith
    {balance : UInt32}
    (hMoves : lobby.movesWith balance = true) :
    ∃ new : Lobby,
      lobby.Admits 0 1 new ∧
        new.accountChipsFor (new.world.names 0) =
          some balance := by
  unfold movesWith at hMoves
  rw [Bool.and_eq_true, decide_eq_true_eq] at hMoves
  rcases hMoves with ⟨hNew, hJoin⟩
  split at hJoin
  · rename_i new hResult
    rcases of_decide_eq_true hJoin with ⟨hSeat, hChips⟩
    exact ⟨new, Admits.joins hResult hSeat hNew, hChips⟩
  · cases hJoin
  · cases hJoin

/- After a raise of all but 5 chips he sits down with 5. -/
theorem movedPlayer_uncovered :
    ¬ ∀ world registry trace lobby player ptr new,
      Run world registry trace lobby →
        world.Reliable →
        lobby.Admits player ptr new →
        new.Covers player := by
  intro hAll
  have hPasses : Transition.passes step
      (opening storedWorld (some [0, 1, 2])) (raisedHand 995)
      (fun _ lobby => lobby.movesWith 5) = true := by
    decide +kernel
  rcases Transition.exists_run_of_passes hPasses with
    ⟨trace, lobby, run, hMoves⟩
  rcases admits_of_movesWith hMoves with
    ⟨new, hAdmits, hChips⟩
  rcases hAll _ _ _ _ _ _ _ run (by decide) hAdmits with
    ⟨balance, hBalance, hEnough⟩
  rw [hChips] at hBalance
  cases hBalance
  exact absurd hEnough (by decide)

/- After a raise to 40 he takes his other 960 along. -/
theorem movedPlayer_covered :
    ∃ trace lobby, ∃ new : Lobby,
      Run storedWorld (some [0, 1, 2]) trace lobby ∧
        lobby.Admits 0 1 new ∧
        new.accountChipsFor (new.world.names 0) = some 960 ∧
        lobby.leavingBalance 0 = 960 ∧
        new.Covers 0 ∧
        lobby.StaysCovered 0 1 := by
  have hPasses : Transition.passes step
      (opening storedWorld (some [0, 1, 2])) (raisedHand 40)
      (fun _ lobby => lobby.movesWith 960 &&
        decide (lobby.leavingBalance 0 = 960 ∧
          lobby.StaysCovered 0 1)) = true := by
    decide +kernel
  rcases Transition.exists_run_of_passes hPasses with
    ⟨trace, lobby, run, hTest⟩
  rw [Bool.and_eq_true, decide_eq_true_eq] at hTest
  rcases hTest with ⟨hMoves, hLeaves, hStays⟩
  rcases admits_of_movesWith hMoves with
    ⟨new, hAdmits, hChips⟩
  rcases Run.admission run (by decide) hAdmits with
    ⟨hCovered, hOnly⟩
  have hCovers := hCovered hStays
  exact ⟨trace, lobby, new, run, hAdmits, hChips, hLeaves,
    hCovers, hOnly hStays.1 hCovers⟩

end Lobby

end Server

end Poker

import AsciiPoker.Server.GameSession.Places
import AsciiPoker.Server.Lobby.Room

/-
  Rooms and the sessions they hold.

  A session serves a list of connections when it is a state
  between two calls of some run of `Table`, with those
  connections as its players.  Every call of a room keeps
  its session serving the room's connections.

  Main declarations:
    * `Config.finish_run`
    * `GameSession.Serves`
    * `Room.InOrder`
    * `Room.addPlayer_of_ok`, `Room.removePlayer_of_ok`,
      `Room.tryStartGame_of_ok`, `Room.onPlayerAction_of_ok`
-/

namespace Poker

namespace Server

open Protocol

------------------------------------------------------------
-- Calls of a Session
------------------------------------------------------------

namespace Config

variable {c : Config}
variable {shuffles : List Shuffle}
variable {t : GameSession}

/- A call that is finished was run step by step. -/
theorem finish_run
    (hFinish : c.finish shuffles = .ok t) :
    ∃ later,
      Transition.Run Config.step c later ⟨t, .done⟩ ∧
      ∀ p ∈ later, ∃ shuffle, p.2 = .proceed shuffle := by
  induction shuffles generalizing c with
  | nil =>
      unfold finish at hFinish
      split at hFinish
      · rename_i hDone
        cases hFinish
        refine ⟨[], ?_, by simp⟩
        rw [← hDone]
        exact Transition.Run.nil
      · cases hFinish
  | cons shuffle rest ih =>
      unfold finish at hFinish
      split at hFinish
      · rename_i hDone
        cases hFinish
        refine ⟨[], ?_, by simp⟩
        rw [← hDone]
        exact Transition.Run.nil
      · cases hStep : c.step (.proceed shuffle) with
        | error exn =>
            rw [hStep] at hFinish
            cases hFinish
        | ok d =>
            rw [hStep] at hFinish
            rcases ih hFinish with ⟨later, run, hProceeds⟩
            refine ⟨_, Transition.Run.cons hStep run, ?_⟩
            intro p hp
            rcases List.mem_cons.mp hp with hHead | hLater
            · exact ⟨shuffle, by rw [hHead]⟩
            · exact hProceeds p hLater

/- A finished call has the places that were ahead of it. -/
theorem finish_places
    (hFinish : c.finish shuffles = .ok t) :
    (t.players, t.connectionMap) = c.placesAhead := by
  rcases finish_run hFinish with ⟨later, run, hProceeds⟩
  have hKeep : ∀ (d : Config) (e : Event) (f : Config),
      d.placesAhead = c.placesAhead →
      (∃ shuffle, e = .proceed shuffle) →
      d.step e = .ok f →
      f.placesAhead = c.placesAhead := by
    rintro d e f hAhead ⟨shuffle, rfl⟩ hOk
    rw [(step_of_ok hOk).placesAhead_eq (by simp), hAhead]
  have hEnd := run.invariant hKeep hProceeds rfl
  rw [← hEnd]
  rfl

end Config

------------------------------------------------------------
-- Sessions That Serve a Room
------------------------------------------------------------

namespace GameSession

/-
  The session is a state of some table's run between two
  calls, and its players are these connections.
-/
structure Serves
    (s : GameSession)
    (connections : List ConnId) : Prop where
  played : ∃ (table : Table) (trace : List (Config × Event)),
    table.Run trace ⟨s, .done⟩
  players_eq : s.players = connections
  enough : 2 ≤ connections.length
  mapped : ∀ c ∈ connections, s.getPlayer c = some c

variable {s t called : GameSession}
variable {connections : List ConnId}
variable {pending : Pending}
variable {shuffles : List Shuffle}

/- A run that goes on with a call until it is finished. -/
theorem Serves.played_finish
    {e : Event}
    (hServes : s.Serves connections)
    (hOk : Config.step ⟨s, .done⟩ e = .ok ⟨called, pending⟩)
    (hFinish : Config.finish ⟨called, pending⟩ shuffles =
      .ok t) :
    ∃ (table : Table) (trace : List (Config × Event)),
      table.Run trace ⟨t, .done⟩ := by
  rcases hServes.played with ⟨table, trace, run⟩
  rcases Config.finish_run hFinish with ⟨later, rest, _⟩
  exact ⟨table, _, (run.snoc hOk).append rest⟩

/- The room may call a session that serves it. -/
theorem Serves.idle
    (hServes : s.Serves connections) :
    Config.Idle ⟨s, .done⟩ := by
  refine ⟨rfl, ?_⟩
  change 2 ≤ s.players.length
  rw [hServes.players_eq]
  exact hServes.enough

/- A session still serves its room after an action. -/
theorem Serves.applyAction
    {connection : ConnId}
    {action : Action}
    {amount : Option UInt32}
    (hServes : s.Serves connections)
    (hCall : s.applyAction connection action amount =
      .ok (called, pending))
    (hFinish : Config.finish ⟨called, pending⟩ shuffles =
      .ok t) :
    t.Serves connections := by
  have hOk : Config.step ⟨s, .done⟩
      (.applyAction connection action amount) =
        .ok ⟨called, pending⟩ := by
    simp [Config.step, hServes.idle, hCall]
  have hPlaces := Config.finish_places hFinish
  rw [(step_of_ok hOk).placesAhead_eq (by simp)] at hPlaces
  rcases Prod.mk.inj hPlaces with ⟨hPlayers, hMap⟩
  refine ⟨hServes.played_finish hOk hFinish, ?_,
    hServes.enough, ?_⟩
  · rw [hPlayers]
    exact hServes.players_eq
  · intro c hc
    unfold getPlayer
    rw [hMap]
    exact hServes.mapped c hc

/- Whoever leaves is gone; with two left, they are served. -/
theorem Serves.removePlayer
    {connection : ConnId}
    (hServes : s.Serves connections)
    (hMem : connection ∈ connections)
    (hCall : s.removePlayer connection =
      .ok (called, pending))
    (hFinish : Config.finish ⟨called, pending⟩ shuffles =
      .ok t)
    (hEnough : t.hasEnoughPlayers) :
    t.Serves (connections.erase connection) := by
  have hOk : Config.step ⟨s, .done⟩
      (.removePlayer connection) =
        .ok ⟨called, pending⟩ := by
    simp [Config.step, hServes.idle, hCall]
  have hStep := step_of_ok hOk
  rcases hServes.played with ⟨table, trace, run⟩
  have hSeated := run.seated
  have hPlaces := Config.finish_places hFinish
  have hSeat : connection ∈ s.players := by
    rw [hServes.players_eq]
    exact hMem
  rw [hStep.placesAhead_removePlayer hSeated.nodup
    (hServes.mapped connection hMem) hSeat,
    hServes.players_eq] at hPlaces
  rcases Prod.mk.inj hPlaces with ⟨hPlayers, hMap⟩
  have hNodup : connections.Nodup := by
    rw [← hServes.players_eq]
    exact hSeated.nodup
  refine ⟨hServes.played_finish hOk hFinish, hPlayers, ?_,
    ?_⟩
  · rw [← hPlayers]
    exact hEnough
  · intro c hc
    rw [hNodup.mem_erase_iff] at hc
    unfold getPlayer
    rw [hMap, KeyMap.find_erase, if_neg hc.1]
    exact hServes.mapped c hc.2

end GameSession

------------------------------------------------------------
-- The Session of a New Game
------------------------------------------------------------

namespace Room

variable {room after : Room}
variable {world world' : World}
variable {player : ConnId}
variable {shuffles : List Shuffle}

/- The roster of a room whose players are different. -/
def roster
    (room : Room)
    (hNodup : room.players.Nodup)
    (hEnough : 2 ≤ room.players.length) : Roster where
  seats := room.players.map fun c => (c, c)
  connections_nodup := by
    simpa [Function.comp_def] using hNodup
  players_nodup := by
    simpa [Function.comp_def] using hNodup
  two_le_length := by simpa using hEnough

/- What `start_game` constructs is a table's new session. -/
theorem makeSession_eq_create
    (bankrolls : KeyMap String UInt32)
    (hNodup : room.players.Nodup)
    (hEnough : 2 ≤ room.players.length) :
    room.makeSession world bankrolls =
      Table.create
        { roster := room.roster hNodup hEnough
          names := world.names
          hasRepository := world.repository.isSome
          bankrolls := bankrolls } := by
  simp [makeSession, Table.create, Roster.players,
    Roster.connectionMap, roster, List.foldl_map,
    Function.comp_def]

/- A map filled with pairs of the same leads back to them. -/
theorem find_foldl_set_self
    (connections : List ConnId)
    (m : KeyMap ConnId PlayerId)
    (c : ConnId) :
    (connections.foldl (fun m c => m.set c c) m).find c =
      if c ∈ connections then some c else m.find c := by
  induction connections generalizing m with
  | nil => simp
  | cons d ds ih =>
      rw [List.foldl_cons, ih, KeyMap.find_set]
      by_cases hTail : c ∈ ds
      · simp [hTail]
      · by_cases hHead : c = d
        · simp [hHead]
        · simp [hTail, hHead]

/- A game that starts serves the room. -/
theorem makeSession_serves
    {bankrolls : KeyMap String UInt32}
    {session : GameSession}
    (hNodup : room.players.Nodup)
    (hEnough : 2 ≤ room.players.length)
    (hFinish : Config.finish
      ⟨room.makeSession world bankrolls, .start⟩ shuffles =
        .ok session) :
    session.Serves room.players := by
  have hCreate := @makeSession_eq_create room world
    bankrolls hNodup hEnough
  rw [hCreate] at hFinish
  rcases Config.finish_run hFinish with ⟨later, run, _⟩
  have hPlaces := Config.finish_places hFinish
  rw [← hCreate, GameSession.placesAhead_of_none rfl]
    at hPlaces
  rcases Prod.mk.inj hPlaces with ⟨hPlayers, hMap⟩
  refine ⟨⟨_, later, run⟩, hPlayers, hEnough, ?_⟩
  intro c hc
  unfold GameSession.getPlayer
  rw [hMap]
  simp [makeSession, find_foldl_set_self, hc]

------------------------------------------------------------
-- Calls of a Room
------------------------------------------------------------

/-
  Nobody sits in the room twice, it is not over its limit,
  and its session serves the players it has.
-/
structure InOrder
    (room : Room) : Prop where
  nodup : room.players.Nodup
  bounded : room.players.length ≤ room.maxPlayers.toNat
  roomy : 2 ≤ room.maxPlayers.toNat
  served : ∀ s ∈ room.gameSession, s.Serves room.players

/- Another session that serves the room, or none. -/
theorem InOrder.withSession
    {session : Option GameSession}
    (hOrder : room.InOrder)
    (hServed : ∀ s ∈ session, s.Serves room.players) :
    { room with gameSession := session }.InOrder :=
  ⟨hOrder.nodup, hOrder.bounded, hOrder.roomy, hServed⟩

/- Starting a game gives the room at most a new session. -/
theorem startGame_of_ok
    {error : Option ErrorCode}
    (hOrder : room.InOrder)
    (hEnough : 2 ≤ room.players.length)
    (hOk : room.startGame world shuffles =
      .ok (error, after, world')) :
    ∃ session,
      after = { room with gameSession := session } ∧
      after.InOrder := by
  unfold startGame at hOk
  by_cases hStarted : room.gameSession.isSome
  · rw [if_pos hStarted] at hOk
    cases hOk
    exact ⟨room.gameSession, rfl, hOrder⟩
  · rw [if_neg hStarted] at hOk
    cases hLoad : room.loadPlayerBankrolls world with
    | error code =>
        rw [hLoad] at hOk
        cases hOk
        exact ⟨room.gameSession, rfl, hOrder⟩
    | ok bankrolls =>
        rw [hLoad] at hOk
        rcases Except.bind_eq_ok.mp hOk with
          ⟨session, hFinish, hRest⟩
        cases hRest
        refine ⟨some session, rfl, hOrder.withSession ?_⟩
        intro s hs
        cases hs
        exact makeSession_serves hOrder.nodup hEnough hFinish

/- A player is refused or comes to sit in the last seat. -/
theorem addPlayer_of_ok
    {added : Bool}
    (hOrder : room.InOrder)
    (hNew : player ∉ room.players)
    (hOk : room.addPlayer world player shuffles =
      .ok (added, after, world')) :
    (added = false ∧ after = room ∧ world' = world ∧
        (room.gameSession.isSome ∨
          room.maxPlayers.toNat ≤ room.players.length)) ∨
      (added = true ∧ after.InOrder ∧
        ∃ session, after = { room with
          players := room.players ++ [player]
          gameSession := session }) := by
  unfold addPlayer at hOk
  by_cases hStarted : room.gameSession.isSome
  · rw [if_pos hStarted] at hOk
    cases hOk
    exact Or.inl ⟨rfl, rfl, rfl, Or.inl hStarted⟩
  · rw [if_neg hStarted] at hOk
    by_cases hFull :
        room.maxPlayers.toNat ≤ room.players.length
    · rw [if_pos hFull] at hOk
      cases hOk
      exact Or.inl ⟨rfl, rfl, rfl, Or.inr hFull⟩
    · rw [if_neg hFull] at hOk
      right
      have hNone : room.gameSession = none := by
        simpa using hStarted
      have hSeated : InOrder { room with
          players := room.players ++ [player] } := by
        refine ⟨?_, ?_, hOrder.roomy, ?_⟩
        · exact hOrder.nodup.append
            (List.nodup_singleton player)
            (by simpa using hNew)
        · change (room.players ++ [player]).length ≤ _
          rw [List.length_append, List.length_singleton]
          exact Nat.lt_of_not_le hFull
        · simp [hNone]
      dsimp only at hOk
      by_cases hLast : (room.players ++ [player]).length =
          room.maxPlayers.toNat
      · rw [if_pos hLast] at hOk
        rcases Except.bind_eq_ok.mp hOk with
          ⟨⟨error, started, w⟩, hStart, hRest⟩
        cases hRest
        have hEnough :
            2 ≤ (room.players ++ [player]).length := by
          rw [hLast]
          exact hOrder.roomy
        rcases startGame_of_ok hSeated hEnough hStart with
          ⟨session, rfl, hAfter⟩
        exact ⟨rfl, hAfter, session, rfl⟩
      · rw [if_neg hLast] at hOk
        cases hOk
        exact ⟨rfl, hSeated, room.gameSession, rfl⟩

/- A session without the leaver, if two are left. -/
theorem removeFromSession_of_ok
    (hOrder : room.InOrder)
    (hMem : player ∈ room.players)
    (hOk : room.removeFromSession world player shuffles =
      .ok (after, world')) :
    ∃ session,
      after = { room with gameSession := session } ∧
      ∀ s ∈ session,
        s.Serves (room.players.erase player) := by
  unfold removeFromSession at hOk
  cases hSession : room.gameSession with
  | none =>
      rw [hSession] at hOk
      cases hOk
      exact ⟨none, by rw [← hSession], by simp⟩
  | some session =>
      rw [hSession] at hOk
      rcases Except.bind_eq_ok.mp hOk with
        ⟨⟨called, pending⟩, hCall, hRest⟩
      rcases Except.bind_eq_ok.mp hRest with
        ⟨left, hFinish, hKept⟩
      cases hKept
      refine ⟨_, rfl, ?_⟩
      intro s hs
      by_cases hEnough : left.hasEnoughPlayers
      · rw [if_pos hEnough] at hs
        cases hs
        exact (hOrder.served session hSession).removePlayer
          hMem hCall hFinish hEnough
      · rw [if_neg hEnough] at hs
        cases hs

/- A player in the room leaves it, whoever then is host. -/
theorem removePlayer_of_ok
    {removed : Bool}
    (hOrder : room.InOrder)
    (hMem : player ∈ room.players)
    (hOk : room.removePlayer world player shuffles =
      .ok (removed, after, world')) :
    after.InOrder ∧ ∃ session,
      after =
        { room with
          players := room.players.erase player
          gameSession := session
          host := hostAfter
            { room with
              players := room.players.erase player }
            player } := by
  unfold removePlayer at hOk
  rw [if_neg (by simpa using hMem)] at hOk
  rcases Except.bind_eq_ok.mp hOk with
    ⟨⟨called, w⟩, hSession, hRest⟩
  rcases removeFromSession_of_ok hOrder hMem hSession with
    ⟨session, rfl, hServed⟩
  suffices hAfter : after =
      { room with
        players := room.players.erase player
        gameSession := session
        host := hostAfter
          { room with
            players := room.players.erase player }
          player } by
    rw [hAfter]
    refine ⟨⟨hOrder.nodup.erase player, ?_, hOrder.roomy,
      hServed⟩, session, rfl⟩
    exact Nat.le_trans
      List.erase_sublist.length_le hOrder.bounded
  dsimp only at hRest
  split at hRest
  · cases hRest
    rfl
  · cases hRest
    rfl

/- The host of a room with players left is one of them. -/
theorem hostAfter_mem
    (hHost : room.host ∈ room.players)
    (hLeft : room.players.erase player ≠ []) :
    hostAfter
        { room with players := room.players.erase player }
        player ∈ room.players.erase player := by
  unfold hostAfter
  dsimp only
  by_cases hLeaves : player = room.host
  · rw [if_pos hLeaves]
    cases hPlayers : room.players.erase player with
    | nil => exact absurd hPlayers hLeft
    | cons c cs => exact List.mem_cons_self ..
  · rw [if_neg hLeaves]
    exact (List.mem_erase_of_ne (Ne.symm hLeaves)).mpr hHost

/- A request to start changes at most the session. -/
theorem tryStartGame_of_ok
    {error : Option ErrorCode}
    (hOrder : room.InOrder)
    (hOk : room.tryStartGame world player shuffles =
      .ok (error, after, world')) :
    ∃ session,
      after = { room with gameSession := session } ∧
      after.InOrder := by
  unfold tryStartGame at hOk
  split at hOk
  · cases hOk
    exact ⟨room.gameSession, rfl, hOrder⟩
  · split at hOk
    · cases hOk
      exact ⟨room.gameSession, rfl, hOrder⟩
    · split at hOk
      · cases hOk
        exact ⟨room.gameSession, rfl, hOrder⟩
      · rename_i hEnough
        exact startGame_of_ok hOrder
          (Nat.le_of_not_lt hEnough) hOk

/- An action changes at most the session. -/
theorem onPlayerAction_of_ok
    {action : Action}
    {amount : Option UInt32}
    (hOrder : room.InOrder)
    (hOk : room.onPlayerAction world player action amount
      shuffles = .ok (after, world')) :
    ∃ session,
      after = { room with gameSession := session } ∧
      after.InOrder := by
  unfold onPlayerAction at hOk
  cases hSession : room.gameSession with
  | none =>
      rw [hSession] at hOk
      cases hOk
      exact ⟨room.gameSession, rfl, hOrder⟩
  | some session =>
      rw [hSession] at hOk
      rcases Except.bind_eq_ok.mp hOk with
        ⟨⟨called, pending⟩, hCall, hRest⟩
      rcases Except.bind_eq_ok.mp hRest with
        ⟨left, hFinish, hKept⟩
      cases hKept
      refine ⟨some left, rfl, hOrder.withSession ?_⟩
      intro s hs
      cases hs
      exact (hOrder.served session hSession).applyAction
        hCall hFinish

end Room

end Server

end Poker

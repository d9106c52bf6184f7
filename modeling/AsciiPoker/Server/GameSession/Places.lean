import AsciiPoker.Server.GameSession.Seated

/-
  The seats and the connections of a session over a whole
  call.

  While a departure is pending the leaver still has his
  seat.  `Config.placesAhead` are the places as they will be
  once he is gone; no step of a call changes them, so that a
  call's result is known from the moment it is made.

  Main declarations:
    * `Config.placesAhead`
    * `Step.placesAhead_eq`,
      `Step.placesAhead_removePlayer`
    * `Table.Run.seated`
-/

namespace Poker

namespace Server

open Protocol

------------------------------------------------------------
-- The Places Ahead
------------------------------------------------------------

/- The players and connections after a pending departure. -/
def Config.placesAhead
    (c : Config) : List PlayerId × KeyMap ConnId PlayerId :=
  match c.pending.leaver? with
  | none => (c.session.players, c.session.connectionMap)
  | some leaver =>
      (c.session.players.eraseIdx leaver.removedIndex,
        c.session.connectionMap.erase leaver.connection)

namespace GameSession

variable {s t : GameSession}

/- The places of a session with nobody about to leave. -/
theorem placesAhead_of_none
    {pending : Pending}
    (hNone : pending.leaver? = none) :
    Config.placesAhead ⟨s, pending⟩ =
      (s.players, s.connectionMap) := by
  simp [Config.placesAhead, hNone]

/- A dealt hand with its blinds leaves the places alone. -/
theorem started_places
    {dealt posted : GameSession}
    {shuffle : Shuffle}
    (hDealt : s.Dealt shuffle dealt)
    (hPosted : dealt.postBlinds = .ok posted) :
    posted.players = s.players ∧
      posted.connectionMap = s.connectionMap := by
  rcases hDealt.spec with
    ⟨chips, deck, hands, roundBets, total, rfl, _⟩
  rcases blinds_of_ok hPosted with ⟨sb, bb, _, _, rfl⟩
  constructor
  · rw [(contribute_frame _ bb _).1,
      (contribute_frame _ sb _).1]
    rfl
  · rw [(contribute_frame _ bb _).2.1,
      (contribute_frame _ sb _).2.1]
    rfl

/- What is left once a leaver's place is cleared. -/
theorem vacate_connectionMap
    (s : GameSession)
    (leaver : Leaver) :
    (s.vacate leaver).connectionMap =
      s.connectionMap.erase leaver.connection := by
  rcases s.vacate_eq leaver with ⟨_, _, h, _⟩
  rw [h]

theorem eraseLeaver_connectionMap
    (s : GameSession)
    (leaver : Leaver) :
    (s.eraseLeaver leaver).connectionMap =
      s.connectionMap.erase leaver.connection := by
  rw [← vacate_connectionMap]
  rfl

end GameSession

------------------------------------------------------------
-- Steps
------------------------------------------------------------

/- A step that moves nobody keeps the places ahead. -/
theorem Config.placesAhead_congr
    {c d : Config}
    (hPlayers : d.session.players = c.session.players)
    (hMap : d.session.connectionMap =
      c.session.connectionMap)
    (hLeaver : d.pending.leaver? = c.pending.leaver?) :
    d.placesAhead = c.placesAhead := by
  unfold Config.placesAhead
  rw [hPlayers, hMap, hLeaver]

/- A place that is cleared was cleared ahead. -/
theorem Config.placesAhead_of_erase
    {s t : GameSession}
    {leaver : Leaver}
    {pending : Pending}
    (hPlayers : t.players =
      s.players.eraseIdx leaver.removedIndex)
    (hMap : t.connectionMap =
      s.connectionMap.erase leaver.connection)
    (hNone : pending.leaver? = none) :
    Config.placesAhead ⟨t, pending⟩ =
      Config.placesAhead
        ⟨s, .resume (.finishRemoval leaver)⟩ := by
  rw [GameSession.placesAhead_of_none hNone, hPlayers, hMap]
  rfl

/- Only a new departure changes the places ahead. -/
theorem Step.placesAhead_eq
    {c d : Config}
    {e : Event}
    (hStep : Step c e d)
    (hStays : ∀ connection, e ≠ .removePlayer connection) :
    d.placesAhead = c.placesAhead := by
  cases hStep with
  | started hDealt hPosted hQuiet =>
      rcases hQuiet with ⟨_, _, rfl, _⟩
      rcases GameSession.started_places hDealt hPosted with
        ⟨hPlayers, hMap⟩
      exact Config.placesAhead_congr hPlayers hMap rfl
  | asked hAt hAct =>
      exact Config.placesAhead_congr rfl rfl rfl
  | passedOver hAt hAct hCloses =>
      exact Config.placesAhead_congr rfl rfl
        (closes_leaver? hCloses)
  | wonByFold hOne =>
      exact Config.placesAhead_congr rfl rfl rfl
  | street hMany hPhase hDeal hQuiet =>
      rcases hQuiet with ⟨_, _, rfl, _⟩
      exact Config.placesAhead_congr rfl rfl rfl
  | riverClosed hMany hPhase =>
      exact Config.placesAhead_congr rfl rfl rfl
  | pastShowdown hMany hPhase =>
      exact Config.placesAhead_congr rfl rfl rfl
  | shownDown hQuiet hPending =>
      rcases hQuiet with ⟨_, _, rfl, _⟩
      rcases hPending with ⟨_, rfl⟩ | ⟨_, rfl⟩ | ⟨_, rfl⟩
      · exact Config.placesAhead_congr rfl rfl rfl
      · exact Config.placesAhead_congr rfl rfl rfl
      · exact Config.placesAhead_congr rfl rfl rfl
  | singleWinner =>
      exact Config.placesAhead_congr rfl rfl rfl
  | @awardedNothing s next shuffle hEmpty =>
      cases next with
      | tryStartNewHand =>
          exact Config.placesAhead_congr rfl rfl rfl
      | finishRemoval leaver =>
          exact Config.placesAhead_congr rfl rfl rfl
  | @awarded s t award next shuffle hFull hPaid hQuiet =>
      rcases hQuiet with ⟨_, _, rfl, _⟩
      rcases GameSession.payPots_frame hPaid with
        ⟨chips, hEq⟩
      have hPlayers :
          award.session.players = s.players := by
        rw [hEq]
      have hMap :
          award.session.connectionMap = s.connectionMap := by
        rw [hEq]
      cases next with
      | tryStartNewHand =>
          exact Config.placesAhead_congr hPlayers hMap rfl
      | finishRemoval leaver =>
          exact Config.placesAhead_congr hPlayers hMap rfl
  | handOver hEnough hChips =>
      exact Config.placesAhead_congr rfl rfl rfl
  | gameOver hOver =>
      exact Config.placesAhead_congr rfl rfl rfl
  | leftFew hFew hErased =>
      rcases hErased with rfl | rfl
      · exact Config.placesAhead_of_erase
          (GameSession.eraseLeaver_players ..)
          (GameSession.eraseLeaver_connectionMap ..) rfl
      · exact Config.placesAhead_of_erase
          (GameSession.vacate_players ..)
          (GameSession.vacate_connectionMap ..) rfl
  | leftOneActive hEnough hOne =>
      exact Config.placesAhead_of_erase
        (GameSession.vacate_players ..)
        (GameSession.vacate_connectionMap ..) rfl
  | leftClosing hEnough hMany hCloses =>
      exact Config.placesAhead_of_erase
        (GameSession.vacate_players ..)
        (GameSession.vacate_connectionMap ..)
        (closes_leaver? hCloses)
  | leftWaiting hEnough hMany hOther hOpen hQuiet =>
      rcases hQuiet with ⟨_, _, rfl, _⟩
      exact Config.placesAhead_of_erase
        (GameSession.vacate_players ..)
        (GameSession.vacate_connectionMap ..) rfl
  | unmapped hEnough hNone => rfl
  | rejected hEnough hPlayer =>
      exact Config.placesAhead_congr rfl rfl rfl
  | wonByAction hEnough hPlayer hAt hActs hQuiet hOne =>
      rcases hQuiet with ⟨_, _, rfl, _⟩
      exact Config.placesAhead_congr hActs.frame.1
        hActs.frame.2.1 rfl
  | acted hEnough hPlayer hAt hActs hQuiet hMany hCloses =>
      rcases hQuiet with ⟨_, _, rfl, _⟩
      exact Config.placesAhead_congr hActs.frame.1
        hActs.frame.2.1 (closes_leaver? hCloses)
  | notSeated hEnough hNone => exact absurd rfl (hStays _)
  | leaving hEnough hPlayer hAt hCurrent hWas hPending =>
      exact absurd rfl (hStays _)

/- A seated player who is called off leaves his place. -/
theorem Step.placesAhead_removePlayer
    {s : GameSession}
    {d : Config}
    {connection : ConnId}
    {p : PlayerId}
    (hStep : Step ⟨s, .done⟩ (.removePlayer connection) d)
    (hNodup : s.players.Nodup)
    (hPlayer : s.getPlayer connection = some p)
    (hMem : p ∈ s.players) :
    d.placesAhead =
      (s.players.erase p,
        s.connectionMap.erase connection) := by
  cases hStep with
  | notSeated hEnough hNone =>
      exact absurd hMem (hNone p hPlayer)
  | @leaving _ leaver current pending hEnough hFound hAt
      hCurrent hWas hPending =>
      have hSame : leaver.player = p := by
        rw [hFound] at hPlayer
        exact Option.some.inj hPlayer
      rcases List.getElem?_eq_some_iff.mp hAt with
        ⟨hLt, hGet⟩
      have hErase : s.players.erase p =
          s.players.eraseIdx leaver.removedIndex := by
        rw [← hSame, ← hGet, List.erase_eq_eraseIdx_of_idxOf
          (hNodup.idxOf_getElem _ hLt)]
      rw [hErase]
      rcases hPending with ⟨_, rfl⟩ | ⟨_, rfl⟩
      · rfl
      · rfl

------------------------------------------------------------
-- Runs
------------------------------------------------------------

/- Every configuration of a run has its seats in order. -/
theorem Table.Run.seated
    {table : Table}
    {trace : List (Config × Event)}
    {c : Config}
    (run : table.Run trace c) :
    c.Seated :=
  Transition.Run.invariant_of_step
    (fun _ _ _ hSeated hOk => hSeated.step (step_of_ok hOk))
    run table.opening_seated

end Server

end Poker

import AsciiPoker.Server.GameSession.Balances
import AsciiPoker.Server.GameSession.Script

/-
  Whom a session speaks to.

  An error goes to the player of the connection whose call
  is rejected, and everything else to the players at the
  table.

  Main declarations:
    * `Event.connection?`, `GameSession.Addresses`
    * `Says.speaks`, `Config.spoke_of_ok`
-/

namespace Poker

namespace Server

open Protocol

/- The connection whose call an event is. -/
def Event.connection? : Event → Option ConnId
| .proceed _ => none
| .applyAction connection _ _ => some connection
| .removePlayer connection => some connection

namespace GameSession

/- Those who get a message while a call is carried out. -/
def Addresses
    (s : GameSession)
    (caller : Option ConnId)
    (p : PlayerId) : ServerMessage → Prop
| .error _ => ∃ connection ∈ caller,
    s.getPlayer connection = some p
| .gameStateUpdate _ => p ∈ s.players
| .yourTurn _ => p ∈ s.players
| .handResult _ => p ∈ s.players
| .actionEvent _ => p ∈ s.players
| .welcome _ => False
| .roomList _ => False
| .joinedRoom _ => False
| .leftRoom _ => False

/- The letters of these effects go where they should. -/
def Speaks
    (s : GameSession)
    (caller : Option ConnId)
    (entries : List Effect) : Prop :=
  ∀ letter ∈ entries.filterMap Effect.letter,
    s.Addresses caller letter.1 letter.2

variable {s t : GameSession}
variable {caller : Option ConnId}
variable {entries more : List Effect}

theorem speaks_nil :
    s.Speaks caller [] := by
  simp [Speaks]

theorem Speaks.append
    (hFirst : s.Speaks caller entries)
    (hSecond : s.Speaks caller more) :
    s.Speaks caller (entries ++ more) := by
  unfold Speaks at *
  rw [List.filterMap_append, List.forall_mem_append]
  exact ⟨hFirst, hSecond⟩

/- A message to everybody at the table. -/
theorem speaks_sendsTo
    {players : List PlayerId}
    {msg : PlayerId → ServerMessage}
    (hEach : ∀ p ∈ players, s.Addresses caller p (msg p)) :
    s.Speaks caller (sendsTo players msg) := by
  unfold Speaks
  rw [letters_sendsTo]
  intro letter hMem
  rcases List.mem_map.mp hMem with ⟨p, hp, rfl⟩
  exact hEach p hp

theorem Updates.speaks
    (hUpdates : t.Updates entries)
    (hPlayers : t.players ⊆ s.players) :
    s.Speaks caller entries := by
  rcases hUpdates with ⟨active, states, _, _, rfl⟩
  exact speaks_sendsTo fun p hp => hPlayers hp

/- Fewer at the table, and no call: whoever is told sits. -/
theorem Speaks.of_keeps
    (hSpeaks : t.Speaks none entries)
    (hPlayers : t.players ⊆ s.players) :
    s.Speaks caller entries := by
  intro letter hMem
  have hHere := hSpeaks letter hMem
  rcases letter with ⟨p, msg⟩
  cases msg with
  | error error =>
      rcases hHere with ⟨connection, hNone, _⟩
      cases hNone
  | gameStateUpdate update => exact hPlayers hHere
  | yourTurn turn => exact hPlayers hHere
  | handResult result => exact hPlayers hHere
  | actionEvent event => exact hPlayers hHere
  | welcome welcome => exact hHere
  | roomList roomList => exact hHere
  | joinedRoom joined => exact hHere
  | leftRoom left => exact hHere

end GameSession

theorem Saves.speaks
    {s : GameSession}
    {caller : Option ConnId}
    {entries : List Effect}
    (hSaves : Saves entries) :
    s.Speaks caller entries := by
  unfold GameSession.Speaks
  rw [hSaves.letters_eq]
  simp

------------------------------------------------------------
-- Steps
------------------------------------------------------------

/- The player of an error is the one whose call it was. -/
theorem Step.sendError_player
    {s : GameSession}
    {p : PlayerId}
    {code : ErrorCode}
    {e : Event}
    (hStep : Step ⟨s, .done⟩ e ⟨s.sendError p code, .done⟩) :
    ∃ connection ∈ e.connection?,
      s.getPlayer connection = some p := by
  have hLonger : ∀ q code', (s.sendError q code').log =
      s.log ++ [.send q (.error (makeError code' ""))] :=
    fun _ _ => rfl
  generalize hAfter : s.sendError p code = t at hStep
  have hLog := congrArg GameSession.log hAfter
  rw [hLonger] at hLog
  cases hStep with
  | unmapped hEnough hNone => simp at hLog
  | @rejected _ q code' connection _ _ hEnough hPlayer =>
      rw [hLonger, List.append_cancel_left_eq,
        List.cons.injEq, Effect.send.injEq] at hLog
      rw [hLog.1.1]
      exact ⟨connection, rfl, hPlayer⟩
  | acted hEnough hPlayer hAt hActs hQuiet hMany hCloses =>
      rcases hCloses with ⟨_, hDone⟩ | ⟨_, hDone⟩
      · cases hDone
      · cases hDone
  | notSeated hEnough hNone => simp at hLog
  | leaving hEnough hPlayer hAt hCurrent hWas hPending =>
      rcases hPending with ⟨_, hDone⟩ | ⟨_, hDone⟩
      · cases hDone
      · cases hDone

/- Whatever a step says, it says it to those it should. -/
theorem Says.speaks
    {c d : Config}
    {e : Event}
    {entries : List Effect}
    (hSays : Says c d entries)
    (hStep : Step c e d) :
    c.session.Speaks e.connection? entries := by
  have hPlayers := hStep.keeps.players
  cases hSays with
  | started hSaves hUpdates =>
      exact hSaves.speaks.append
        (hUpdates.speaks hPlayers)
  | asked hDone hAt =>
      intro letter hMem
      cases List.mem_singleton.mp hMem
      exact List.mem_of_getElem? hAt
  | passedOver hBusy => exact GameSession.speaks_nil
  | street hAsk hUpdates => exact hUpdates.speaks hPlayers
  | closed hNext => exact GameSession.speaks_nil
  | shownDown hUpdates => exact hUpdates.speaks hPlayers
  | singleWinner => exact GameSession.speaks_nil
  | awardedNobody => exact GameSession.speaks_nil
  | awarded hSaves =>
      refine hSaves.speaks.append (GameSession.Speaks.append
        (GameSession.speaks_sendsTo ?_)
        (GameSession.speaks_sendsTo ?_))
      · exact fun p hp => hPlayers hp
      · exact fun p hp => hPlayers hp
  | dealtAgain => exact GameSession.speaks_nil
  | left hSaves hBusy => exact hSaves.speaks
  | leftWaiting hSaves hIdle hUpdates =>
      exact hSaves.speaks.append
        (hUpdates.speaks hPlayers)
  | silent => exact GameSession.speaks_nil
  | rejected =>
      intro letter hMem
      cases List.mem_singleton.mp hMem
      exact hStep.sendError_player
  | acted hBusy =>
      exact GameSession.speaks_sendsTo fun p hp => hp

namespace GameSession

/-
  `t` has the log of `s` and nobody new, and what it said
  since then went to those whom `s` addresses.
-/
def Spoke
    (s : GameSession)
    (caller : Option ConnId)
    (t : GameSession) : Prop :=
  t.players ⊆ s.players ∧
    ∃ entries, t.log = s.log ++ entries ∧
      s.Speaks caller entries

theorem Spoke.refl
    (s : GameSession)
    (caller : Option ConnId) :
    s.Spoke caller s :=
  ⟨List.Subset.refl _, [], (List.append_nil _).symm,
    speaks_nil⟩

theorem Spoke.trans
    {s t u : GameSession}
    {caller : Option ConnId}
    (hFirst : s.Spoke caller t)
    (hSecond : t.Spoke none u) :
    s.Spoke caller u := by
  rcases hFirst with ⟨hPlayers, entries, hLog, hSpeaks⟩
  rcases hSecond with ⟨hFewer, more, hMore, hSpeaksMore⟩
  refine ⟨fun _ hp => hPlayers (hFewer hp), entries ++ more,
    ?_, hSpeaks.append (hSpeaksMore.of_keeps hPlayers)⟩
  rw [hMore, hLog, List.append_assoc]

end GameSession

namespace Config

theorem spoke_of_ok
    {c d : Config}
    {e : Event}
    (hOk : c.step e = .ok d) :
    c.session.Spoke e.connection? d.session := by
  have hStep := step_of_ok hOk
  rcases says_of_ok hOk with ⟨entries, hLog, hSays⟩
  exact ⟨hStep.keeps.players, entries, hLog,
    hSays.speaks hStep⟩

end Config

end Server

end Poker

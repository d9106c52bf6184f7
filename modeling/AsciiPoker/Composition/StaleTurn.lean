import AsciiPoker.Composition.Play
import AsciiPoker.Composition.Questions

/-
  Clients that show a turn which is over.

  A client drops a turn when its user acts, when he leaves
  and when the game ends, but not when another player's
  departure ends the hand or moves the turn.  While no
  departure does that to a player who holds the turn,
  whoever shows one is on turn.

  A turn is held as a letter on its way, by the client that
  shows it or as an action on its way, and by one player
  once at most.

  Main declarations:
    * `Play.turns`, `Play.SparesTurns`
    * `Play.Sound`, `Play.Sound.step`
    * `Play.Run.noStaleTurn`
-/

namespace Poker

open Protocol Server Client

------------------------------------------------------------
-- What a Room Sends
------------------------------------------------------------

namespace Server

namespace Room

variable {room after : Room}
variable {world world' : World}
variable {player : ConnId}
variable {shuffles : List Shuffle}

/- What a session said is sent. -/
theorem outbox_performSince
    {s t : GameSession}
    {entries : List Effect}
    (hLog : t.log = s.log ++ entries) :
    (world.performSince s t).outbox =
      world.outbox ++ entries.filterMap Effect.letter := by
  have hNew : t.log.drop s.log.length = entries := by
    rw [hLog]
    exact List.drop_left
  unfold World.performSince
  rw [hNew]
  exact World.foldl_perform_outbox entries world

/- A session that serves a room is called in order. -/
theorem InOrder.session_inOrder
    {s : GameSession}
    (hOrder : room.InOrder)
    (hSession : room.gameSession = some s) :
    Config.InOrder ⟨s, .done⟩ := by
  rcases (hOrder.served s hSession).played with
    ⟨table, trace, run⟩
  exact run.inOrder

/- An action of a player calls the session of his room. -/
theorem onPlayerAction_calls
    {s : GameSession}
    {action : Action}
    {amount : Option UInt32}
    (hSession : room.gameSession = some s)
    (hOk : room.onPlayerAction world player action amount
      shuffles = .ok (after, world')) :
    ∃ called pending t,
      s.applyAction player action amount =
        .ok (called, pending) ∧
      Config.finish ⟨called, pending⟩ shuffles = .ok t ∧
      after = { room with gameSession := some t } ∧
      world' = world.performSince s t := by
  unfold onPlayerAction at hOk
  rw [hSession] at hOk
  rcases Except.bind_eq_ok.mp hOk with
    ⟨⟨called, pending⟩, hCall, hRest⟩
  rcases Except.bind_eq_ok.mp hRest with ⟨t, hFinish, hEnd⟩
  cases hEnd
  exact ⟨called, pending, t, hCall, hFinish, rfl, rfl⟩

/- Whoever stays is told of the room as it is now. -/
theorem removePlayer_outbox
    {removed : Bool}
    (hMem : player ∈ room.players)
    (hOk : room.removePlayer world player shuffles =
      .ok (removed, after, world')) :
    ∃ changed w joined,
      room.removeFromSession world player shuffles =
        .ok (changed, w) ∧
      after.gameSession = changed.gameSession ∧
      joined.inGame = after.gameSession.isSome ∧
      world'.outbox = w.outbox ++
        Mailbox.toAll (changed.players.erase player)
          fun _ => .joinedRoom joined := by
  unfold removePlayer at hOk
  rw [if_neg (by simpa using hMem)] at hOk
  rcases Except.bind_eq_ok.mp hOk with
    ⟨⟨changed, w⟩, hSession, hRest⟩
  dsimp only at hRest
  split at hRest
  · cases hRest
    exact ⟨changed, w, _, hSession, rfl, rfl,
      notifyAllAboutJoined_outbox _ w⟩
  · rename_i hEmpty
    cases hRest
    refine ⟨changed, _, ⟨0, [], "", 0, _⟩, hSession, rfl, rfl,
      ?_⟩
    rw [not_not.mp hEmpty]
    exact (List.append_nil _).symm

/- A departure calls the session of the room. -/
theorem removeFromSession_calls
    {s : GameSession}
    {changed : Room}
    (hSession : room.gameSession = some s)
    (hOk : room.removeFromSession world player shuffles =
      .ok (changed, world')) :
    ∃ called pending t,
      s.removePlayer player = .ok (called, pending) ∧
      Config.finish ⟨called, pending⟩ shuffles = .ok t ∧
      changed.gameSession =
        (if t.hasEnoughPlayers then some t else none) ∧
      world' = world.performSince s t := by
  unfold removeFromSession at hOk
  rw [hSession] at hOk
  rcases Except.bind_eq_ok.mp hOk with
    ⟨⟨called, pending⟩, hCall, hRest⟩
  rcases Except.bind_eq_ok.mp hRest with ⟨t, hFinish, hEnd⟩
  cases hEnd
  exact ⟨called, pending, t, hCall, hFinish, rfl, rfl⟩

/- The first hand of a new game asks whoever is on turn. -/
theorem asks_of_start
    {host : ConnId}
    (hOrder : room.InOrder)
    (hOk : room.tryStartGame { world with outbox := [] } host
      shuffles = .ok (none, after, world')) :
    ∃ (t : GameSession) (entries : List Effect),
      after.gameSession = some t ∧
      after.InOrder ∧ Config.AsksInHand ⟨t, .done⟩ ∧
      world'.outbox = entries.filterMap Effect.letter ∧
      Asks t (entries.filterMap Effect.letter) := by
  rcases tryStartGame_of_ok hOrder hOk with ⟨_, _, hOrdered⟩
  unfold tryStartGame at hOk
  split at hOk
  · cases hOk
  rename_i hIdle
  split at hOk
  · cases hOk
  split at hOk
  · cases hOk
  rename_i hEnough
  unfold startGame at hOk
  rw [if_neg hIdle] at hOk
  split at hOk
  · cases hOk
  rename_i bankrolls hLoad
  rcases Except.bind_eq_ok.mp hOk with ⟨t, hFinish, hEnd⟩
  cases hEnd
  have hTwo := Nat.le_of_not_lt hEnough
  have hCreate := @makeSession_eq_create room
    { world with outbox := [] } bankrolls hOrder.nodup hTwo
  have hOpening : Config.InOrder ⟨room.makeSession
      { world with outbox := [] } bankrolls, .start⟩ := by
    rw [hCreate]
    exact Table.opening_inOrder _
  rcases Config.finish_asks hOpening trivial hFinish with
    ⟨hInHand, entries, hLog, hAsks⟩
  refine ⟨t, entries, rfl, hOrdered, hInHand, ?_, hAsks⟩
  exact outbox_performSince hLog

/- The others keep their seats. -/
theorem players_of_removed
    {s called t : GameSession}
    {pending : Pending}
    {connections : List ConnId}
    (hServes : s.Serves connections)
    (hMem : player ∈ connections)
    (hCall : s.removePlayer player = .ok (called, pending))
    (hFinish : Config.finish ⟨called, pending⟩ shuffles =
      .ok t) :
    t.players = connections.erase player := by
  have hOk : Config.step ⟨s, .done⟩ (.removePlayer player) =
      .ok ⟨called, pending⟩ := by
    simp [Config.step, hServes.idle, hCall]
  have hStep := step_of_ok hOk
  rcases hServes.played with ⟨table, trace, run⟩
  have hSeated := run.seated
  have hPlaces := Config.finish_places hFinish
  have hSeat : player ∈ s.players := by
    rw [hServes.players_eq]
    exact hMem
  rw [hStep.placesAhead_removePlayer hSeated.nodup
    (hServes.mapped player hMem) hSeat,
    hServes.players_eq] at hPlaces
  exact (Prod.mk.inj hPlaces).1

end Room

end Server

------------------------------------------------------------
-- Holding the Turn
------------------------------------------------------------

/- Whether a request is an action. -/
def Request.isAction : Request → Bool
| .playerAction _ => true
| .leaveRoom => false
| .closed => false

/- Whether a message is a question. -/
def isQuestion : ServerMessage → Bool
| .yourTurn _ => true
| _ => false

/- A room that is not in a game any more. -/
def endsGame : ServerMessage → Prop
| .joinedRoom joined => joined.inGame = false
| _ => False

/- The answer to a client that has left. -/
def isLeftRoom : ServerMessage → Prop
| .leftRoom _ => True
| _ => False

namespace Play

variable {play after : Play}
variable {c d : ConnId}

/-
  In how many ways a player holds the turn: letters that
  bear one, what the client shows and actions on their way.
-/
def turns
    (play : Play)
    (c : ConnId) : Nat :=
  (play.inbox c).countP bearsTurn +
    (play.clients c).hasTurn.toNat +
    (play.requests c).countP Request.isAction

/- The first request of a player is to leave his room. -/
def Leaves
    (play : Play)
    (c : ConnId) : Prop :=
  c ∈ play.room.players ∧
    ((play.requests c).head? = some .leaveRoom ∨
      (play.requests c).head? = some .closed)

instance
    (play : Play)
    (c : ConnId) :
    Decidable (play.Leaves c) :=
  inferInstanceAs (Decidable (_ ∧ _))

/-
  A departure from a table of three or more, while another
  player holds the turn, leaves the betting round open and
  that player's seat where it is.
-/
def SparesTurns
    (play : Play) : Move → Prop
| .serve c _ =>
    play.Leaves c →
      ∀ s ∈ play.room.gameSession, ∀ p ∈ play.room.players,
        p ≠ c → play.turns p ≠ 0 →
          s.players.length ≤ 2 ∨ s.StaysOpen c
| _ => True

/- Without a session, he is calm or about to be. -/
def Ended
    (play : Play)
    (c : ConnId) : Prop :=
  Mailbox.Settles (fun ui : PokerUI => ui.hasTurn = false)
    endsGame (fun msg => bearsTurn msg = false)
    (play.clients c) (play.inbox c)

/- And so is whoever is not in the room. -/
def Away
    (play : Play)
    (c : ConnId) : Prop :=
  Mailbox.Settles
    (fun ui : PokerUI =>
      ui.hasTurn = false ∧ ui.actionPending = false)
    isLeftRoom (fun msg => isQuestion msg = false)
    (play.clients c) (play.inbox c)

/-
  While there is a session, a player holds the turn once at
  most, and then he is on turn.
-/
structure Sound
    (play : Play) : Prop where
  ordered : play.room.InOrder
  sent : play.world.outbox = []
  inHand : ∀ s ∈ play.room.gameSession,
    Config.AsksInHand ⟨s, .done⟩
  offline : ∀ c, play.online c = false →
    (play.clients c).hasTurn = false
  closing : ∀ c, .closed ∈ play.requests c →
    play.online c = false
  held : ∀ s ∈ play.room.gameSession,
    ∀ c ∈ play.room.players,
      play.turns c ≤ 1 ∧ (play.turns c ≠ 0 → s.OnTurn c)
  ended : play.room.gameSession = none →
    ∀ c ∈ play.room.players, play.Ended c
  away : ∀ c, c ∉ play.room.players →
    play.online c = true → play.Away c

------------------------------------------------------------
-- Clients Move
------------------------------------------------------------

section Clients

/-
  A move of a client keeps the room as it is.  Nobody comes
  to hold the turn more often, and whoever settles still
  does.
-/
theorem Sound.of_client
    (hSound : play.Sound)
    (hRoom : after.room = play.room)
    (hWorld : after.world = play.world)
    (hOffline : ∀ c, after.online c = false →
      (after.clients c).hasTurn = false)
    (hClosing : ∀ c, .closed ∈ after.requests c →
      after.online c = false)
    (hOnline : ∀ c, after.online c = true →
      play.online c = true)
    (hTurns : ∀ c, after.turns c ≤ play.turns c)
    (hEnded : ∀ c, play.Ended c → after.Ended c)
    (hAway : ∀ c, after.online c = true →
      play.Away c → after.Away c) :
    after.Sound := by
  refine ⟨?_, ?_, ?_, hOffline, hClosing, ?_, ?_, ?_⟩
  · rw [hRoom]
    exact hSound.ordered
  · rw [hWorld]
    exact hSound.sent
  · rw [hRoom]
    exact hSound.inHand
  · rw [hRoom]
    intro s hSession c hMem
    rcases hSound.held s hSession c hMem with ⟨hOnce, hTurn⟩
    refine ⟨Nat.le_trans (hTurns c) hOnce, fun hHolds => ?_⟩
    have hLess := hTurns c
    exact hTurn (by omega)
  · rw [hRoom]
    exact fun hNone c hMem =>
      hEnded c (hSound.ended hNone c hMem)
  · rw [hRoom]
    exact fun c hOut hHere =>
      hAway c hHere (hSound.away c hOut (hOnline c hHere))

variable {ui : PokerUI}
variable {msg : ServerMessage}

theorem calm_of_mild
    (hCalm : ui.hasTurn = false)
    (hMild : bearsTurn msg = false) :
    (ui.addServerMessage msg).hasTurn = false := by
  rw [Bool.eq_false_iff] at hCalm hMild ⊢
  intro hTurn
  rcases PokerUI.hasTurn_addServerMessage hTurn with hHad | hBears
  · exact hCalm hHad
  · exact hMild hBears

theorem calm_of_endsGame
    (hEnds : endsGame msg) :
    (ui.addServerMessage msg).hasTurn = false := by
  cases msg with
  | joinedRoom joined =>
      rw [Bool.eq_false_iff]
      intro hTurn
      have hGame := (PokerUI.hasTurn_applyJoinedRoom hTurn).2
      exact absurd (hGame.symm.trans hEnds) (by simp)
  | _ => exact absurd hEnds id

/- Nothing but a question stirs a client that waits for nothing. -/
theorem away_of_mild
    (hCalm : ui.hasTurn = false ∧ ui.actionPending = false)
    (hMild : isQuestion msg = false) :
    (ui.addServerMessage msg).hasTurn = false ∧
      (ui.addServerMessage msg).actionPending = false := by
  cases msg with
  | yourTurn msg => cases hMild
  | error msg =>
      refine ⟨?_, rfl⟩
      simp only [PokerUI.addServerMessage, hCalm.2]
      exact hCalm.1
  | gameStateUpdate msg =>
      unfold PokerUI.addServerMessage
      dsimp only
      rw [if_neg (by simp [hCalm.2])]
      exact hCalm
  | joinedRoom joined => exact ⟨calm_of_mild hCalm.1 rfl, hCalm.2⟩
  | leftRoom msg => exact ⟨rfl, rfl⟩
  | welcome msg => exact hCalm
  | roomList msg => exact hCalm
  | handResult msg => exact hCalm
  | actionEvent msg => exact hCalm

theorem away_of_leftRoom
    (hLeft : isLeftRoom msg) :
    (ui.addServerMessage msg).hasTurn = false ∧
      (ui.addServerMessage msg).actionPending = false := by
  cases msg with
  | leftRoom msg => exact ⟨rfl, rfl⟩
  | _ => exact absurd hLeft id

/- Whoever acts had the turn, and it is on its way now. -/
theorem Sound.act
    (hSound : play.Sound)
    (hHere : play.online c = true)
    (action : Action)
    (amount : Option UInt32) :
    (play.act c action amount).Sound := by
  unfold Play.act
  cases hSent : (play.clients c).sendAction action with
  | none => exact hSound
  | some ui =>
      rcases PokerUI.hasTurn_of_sendAction hSent with
        ⟨hHad, hGone⟩
      dsimp only
      refine hSound.of_client rfl rfl ?_ ?_ (fun _ h => h)
        ?_ ?_ ?_
      · intro d hOff
        by_cases hEq : d = c
        · rw [hEq] at hOff
          exact absurd (hHere.symm.trans hOff) (by simp)
        · simpa [post, setClient, hEq] using
            hSound.offline d hOff
      · intro d hMem
        by_cases hEq : d = c
        · rw [hEq] at hMem ⊢
          apply hSound.closing c
          simpa [post, setClient] using hMem
        · apply hSound.closing d
          simpa [post, setClient, hEq] using hMem
      · intro d
        by_cases hEq : d = c
        · rw [hEq]
          simp [turns, post, setClient, hHad, hGone,
            Request.isAction]
          omega
        · simp [turns, post, setClient, hEq]
      · intro d hEnded
        by_cases hEq : d = c
        · rw [hEq] at hEnded ⊢
          have hLater := hEnded.change
            (fun hCalm => absurd (hHad.symm.trans hCalm)
              (by simp) : _ → ui.hasTurn = false)
          simpa [Ended, post, setClient] using hLater
        · simpa [Ended, post, setClient, hEq] using hEnded
      · intro d _ hAway
        by_cases hEq : d = c
        · rw [hEq] at hAway ⊢
          have hLater := hAway.change
            (fun hCalm => absurd (hHad.symm.trans hCalm.1)
              (by simp) : _ → ui.hasTurn = false ∧
                ui.actionPending = false)
          simpa [Away, post, setClient] using hLater
        · simpa [Away, post, setClient, hEq] using hAway

/- A request that is no action holds no turn. -/
theorem Sound.leave
    (hSound : play.Sound) :
    (play.post c .leaveRoom).Sound := by
  refine hSound.of_client rfl rfl hSound.offline ?_
    (fun _ h => h) ?_ (fun _ h => h) (fun _ _ h => h)
  · intro d hMem
    by_cases hEq : d = c
    · rw [hEq] at hMem ⊢
      apply hSound.closing c
      simpa [post] using hMem
    · apply hSound.closing d
      simpa [post, hEq] using hMem
  · intro d
    by_cases hEq : d = c
    · rw [hEq]
      simp [turns, post, Request.isAction]
    · simp [turns, post, hEq]

/- A client without a connection shows no turn. -/
theorem Sound.hangUp
    (hSound : play.Sound) :
    (play.hangUp c).Sound := by
  unfold Play.hangUp
  refine hSound.of_client rfl rfl ?_ ?_ ?_ ?_ ?_ ?_
  · intro d hOff
    by_cases hEq : d = c
    · rw [hEq]
      simp [post, setClient]
      rfl
    · have hWas := hSound.offline d
        (by simpa [post, setClient, hEq] using hOff)
      simpa [post, setClient, hEq] using hWas
  · intro d hMem
    by_cases hEq : d = c
    · simp [post, setClient, hEq]
    · have hWas := hSound.closing d
        (by simpa [post, setClient, hEq] using hMem)
      simpa [post, setClient, hEq] using hWas
  · intro d hHere
    by_cases hEq : d = c
    · simp [post, setClient, hEq] at hHere
    · simpa [post, setClient, hEq] using hHere
  · intro d
    by_cases hEq : d = c
    · rw [hEq]
      have hGone : ((play.clients c).onConnectionChanged
          .disconnected).hasTurn = false := rfl
      simp [turns, post, setClient, Request.isAction, hGone]
    · simp [turns, post, setClient, hEq]
  · intro d hEnded
    by_cases hEq : d = c
    · rw [hEq] at hEnded ⊢
      have hLater := hEnded.change
        (fun _ => rfl : _ →
          ((play.clients c).onConnectionChanged
            .disconnected).hasTurn = false)
      simpa [Ended, post, setClient] using hLater
    · simpa [Ended, post, setClient, hEq] using hEnded
  · intro d hHere hAway
    by_cases hEq : d = c
    · simp [post, setClient, hEq] at hHere
    · simpa [Away, post, setClient, hEq] using hAway

/- Reading on gives nobody more than was on its way. -/
theorem Sound.deliver
    (hSound : play.Sound)
    (hHere : play.online c = true)
    (hOk : play.deliver c = .ok after) :
    after.Sound := by
  unfold Play.deliver at hOk
  cases hInbox : play.inbox c with
  | nil =>
      rw [hInbox] at hOk
      cases hOk
  | cons msg rest =>
      rw [hInbox] at hOk
      cases hOk
      refine hSound.of_client rfl rfl ?_ hSound.closing
        (fun _ h => h) ?_ ?_ ?_
      · intro d hOff
        by_cases hEq : d = c
        · rw [hEq] at hOff
          exact absurd (hHere.symm.trans hOff) (by simp)
        · simpa [setClient, hEq] using hSound.offline d hOff
      · intro d
        by_cases hEq : d = c
        · rw [hEq]
          have hTurn := @PokerUI.hasTurn_addServerMessage
            (play.clients c) msg
          simp only [turns, setClient, Function.update_self,
            hInbox, List.countP_cons]
          cases hNow : ((play.clients c).addServerMessage
              msg).hasTurn with
          | false =>
              simp only [Bool.toNat_false]
              omega
          | true =>
              rcases hTurn hNow with hHad | hBears
              · simp [hHad]
              · simp [hBears]
        · simp [turns, setClient, hEq]
      · intro d hEnded
        by_cases hEq : d = c
        · rw [hEq] at hEnded ⊢
          unfold Ended at hEnded
          rw [hInbox] at hEnded
          have hLater := hEnded.read
            (fun _ _ => calm_of_mild)
            (fun _ _ => calm_of_endsGame)
          simpa [Ended, setClient] using hLater
        · simpa [Ended, setClient, hEq] using hEnded
      · intro d _ hAway
        by_cases hEq : d = c
        · rw [hEq] at hAway ⊢
          unfold Away at hAway
          rw [hInbox] at hAway
          have hLater := hAway.read
            (fun _ _ => away_of_mild)
            (fun _ _ => away_of_leftRoom)
          simpa [Away, setClient] using hLater
        · simpa [Away, setClient, hEq] using hAway

end Clients

------------------------------------------------------------
-- The Server Moves
------------------------------------------------------------

section Serving

variable {room : Room}
variable {world : World}
variable {request : Request}
variable {rest : List Request}
variable {shuffles : List Shuffle}

/- A request is taken up. -/
def taken
    (play : Play)
    (c : ConnId)
    (rest : List Request) : Play :=
  { play with
    requests := Function.update play.requests c rest }

/- An action that is taken up holds the turn no more. -/
theorem turns_taken
    (hFirst : play.requests c = request :: rest)
    (d : ConnId) :
    (play.taken c rest).turns d +
        (if d = c ∧ request.isAction = true then 1 else 0) =
      play.turns d := by
  by_cases hEq : d = c
  · rw [hEq]
    simp only [turns, taken, Function.update_self, hFirst,
      List.countP_cons, true_and]
    omega
  · simp [turns, taken, hEq]

theorem turns_taken_le
    (hFirst : play.requests c = request :: rest)
    (d : ConnId) :
    (play.taken c rest).turns d ≤ play.turns d := by
  have hAll := turns_taken hFirst d
  omega

/- What is sent may give turns. -/
theorem turns_dispatch
    (play : Play)
    (room : Room)
    (world : World)
    (d : ConnId) :
    (play.dispatch room world).turns d =
      play.turns d + turnsTo d world.outbox := by
  simp only [turns, dispatch, turnsTo, List.countP_append]
  omega

/- Nobody is stirred by letters that bear no turn to him. -/
theorem mild_of_turnsTo
    {letters : List (PlayerId × ServerMessage)}
    (hNone : turnsTo d letters = 0) :
    ∀ msg ∈ Mailbox.picked some d letters,
      bearsTurn msg = false := by
  intro msg hMem
  have hNot := List.countP_eq_zero.mp hNone msg hMem
  simpa using hNot

theorem not_isQuestion
    {msg : ServerMessage}
    (hMild : bearsTurn msg = false) :
    isQuestion msg = false := by
  cases msg with
  | yourTurn msg => cases hMild
  | _ => rfl

/- What the server's part of a move has to keep. -/
theorem Sound.of_server
    (hSound : play.Sound)
    (hFirst : play.requests c = request :: rest)
    (hOrdered : room.InOrder)
    (hInHand : ∀ s ∈ room.gameSession,
      Config.AsksInHand ⟨s, .done⟩)
    (hHeld : ∀ s ∈ room.gameSession, ∀ d ∈ room.players,
      (play.taken c rest).turns d +
          turnsTo d world.outbox ≤ 1 ∧
        ((play.taken c rest).turns d +
          turnsTo d world.outbox ≠ 0 → s.OnTurn d))
    (hEnded : room.gameSession = none →
      ∀ d ∈ room.players,
        ((play.taken c rest).dispatch room world).Ended d)
    (hAway : ∀ d, d ∉ room.players → play.online d = true →
      ((play.taken c rest).dispatch room world).Away d) :
    ((play.taken c rest).dispatch room world).Sound := by
  refine ⟨hOrdered, rfl, hInHand, hSound.offline, ?_, ?_,
    hEnded, hAway⟩
  · intro d hMem
    apply hSound.closing d
    by_cases hEq : d = c
    · rw [hEq] at hMem ⊢
      rw [hFirst]
      apply List.mem_cons_of_mem
      simpa [taken, dispatch] using hMem
    · simpa [taken, dispatch, hEq] using hMem
  · intro s hSession d hMem
    rw [turns_dispatch]
    exact hHeld s hSession d hMem

/- Letters that bear no turn do not keep him from settling. -/
theorem Ended.sent
    (hEnded : play.Ended d)
    (hNone : turnsTo d world.outbox = 0) :
    ((play.taken c rest).dispatch room world).Ended d :=
  Mailbox.Settles.append hEnded (mild_of_turnsTo hNone)

theorem Away.sent
    (hAway : play.Away d)
    (hNone : ∀ msg ∈ Mailbox.picked some d world.outbox,
      isQuestion msg = false) :
    ((play.taken c rest).dispatch room world).Away d :=
  Mailbox.Settles.append hAway hNone

/- The room is as it was, and nobody in it is sent a turn. -/
theorem Sound.of_still
    (hSound : play.Sound)
    (hFirst : play.requests c = request :: rest)
    (hRoom : room = play.room)
    (hInside : ∀ d ∈ play.room.players,
      turnsTo d world.outbox = 0)
    (hOutside : ∀ d, d ∉ play.room.players →
      ∀ msg ∈ Mailbox.picked some d world.outbox,
        isQuestion msg = false) :
    ((play.taken c rest).dispatch room world).Sound := by
  subst hRoom
  apply hSound.of_server hFirst hSound.ordered hSound.inHand
  · intro s hSession d hMem
    rcases hSound.held s hSession d hMem with ⟨hOnce, hTurn⟩
    have hLess := turns_taken_le hFirst d
    rw [hInside d hMem, Nat.add_zero]
    exact ⟨by omega, fun hHolds => hTurn (by omega)⟩
  · intro hNone d hMem
    exact (hSound.ended hNone d hMem).sent (hInside d hMem)
  · intro d hOut hHere
    exact (hSound.away d hOut hHere).sent (hOutside d hOut)

/- Whoever holds the turn is alone in it. -/
theorem Sound.turns_eq_zero
    {s : GameSession}
    {p : PlayerId}
    (hSound : play.Sound)
    (hSession : play.room.gameSession = some s)
    (hTurn : s.OnTurn p)
    (hMem : d ∈ play.room.players)
    (hNe : d ≠ p) :
    play.turns d = 0 := by
  by_contra hHolds
  have hOther := (hSound.held s hSession d hMem).2 hHolds
  have hSame := hTurn.2.symm.trans hOther.2
  exact hNe (Option.some.inj hSame).symm

/- The player on turn acts. -/
theorem Sound.of_action
    {msg : PlayerAction}
    (hSound : play.Sound)
    (hFirst : play.requests c = .playerAction msg :: rest)
    (hMem : c ∈ play.room.players)
    (hOk : play.room.onPlayerAction play.world c msg.action
      msg.amount shuffles = .ok (room, world)) :
    ((play.taken c rest).dispatch room world).Sound := by
  cases hSession : play.room.gameSession with
  | none =>
      unfold Room.onPlayerAction at hOk
      rw [hSession] at hOk
      cases hOk
      apply hSound.of_still hFirst rfl
      · intro d _
        rw [hSound.sent]
        rfl
      · intro d _ m hLetter
        rw [hSound.sent] at hLetter
        cases hLetter
  | some s =>
      rcases Room.onPlayerAction_calls hSession hOk with
        ⟨called, pending, t, hCall, hFinish, hRoom, rfl⟩
      have hServes := hSound.ordered.served s hSession
      have hOne : play.turns c ≠ 0 := by
        have hAll := turns_taken hFirst c
        simp only [Request.isAction, and_self, if_true] at hAll
        omega
      have hTurn := (hSound.held s hSession c hMem).2 hOne
      have hNobody : ∀ d ∈ play.room.players,
          (play.taken c rest).turns d = 0 := by
        intro d hd
        by_cases hEq : d = c
        · have hAll := turns_taken hFirst c
          have hOnce := (hSound.held s hSession c hMem).1
          simp only [Request.isAction, and_self, if_true]
            at hAll
          rw [hEq]
          omega
        · have hLess := turns_taken_le hFirst d
          have hZero := hSound.turns_eq_zero hSession hTurn
            hd hEq
          omega
      rcases GameSession.applyAction_asks
          (hSound.ordered.session_inOrder hSession)
          (hSound.inHand s hSession) hServes.idle
          (hServes.mapped c hMem) hTurn hCall hFinish with
        ⟨hInHand, entries, hLog, hAsks⟩
      have hOutbox : (play.world.performSince s t).outbox =
          play.world.outbox ++
            entries.filterMap Effect.letter :=
        Room.outbox_performSince hLog
      rw [hSound.sent, List.nil_append] at hOutbox
      rcases Room.onPlayerAction_of_ok hSound.ordered hOk with
        ⟨_, _, hOrdered⟩
      have hPlayers : t.players = play.room.players :=
        (hServes.applyAction hCall hFinish).players_eq
      subst hRoom
      apply hSound.of_server hFirst hOrdered
      · intro u hu
        cases hu
        exact hInHand
      · intro u hu d hd
        cases hu
        rw [hNobody d hd, Nat.zero_add, hOutbox]
        exact hAsks d
      · intro hNone
        cases hNone
      · intro d hOut hHere
        apply (hSound.away d hOut hHere).sent
        rw [hOutbox]
        have hZero : turnsTo d
            (entries.filterMap Effect.letter) = 0 := by
          by_contra hSome
          have hSeat := List.mem_of_getElem?
            ((hAsks d).2 hSome).2
          rw [hPlayers] at hSeat
          exact hOut hSeat
        exact fun m hLetter =>
          not_isQuestion (mild_of_turnsTo hZero m hLetter)

------------------------------------------------------------
-- Departures
------------------------------------------------------------

variable {left : World}
variable {removed : Bool}
variable {said extra : List (PlayerId × ServerMessage)}
variable {joined : JoinedRoom}

/- What a leaver is sent himself, if he is still there. -/
def Farewell
    (play : Play)
    (c : ConnId)
    (extra : List (PlayerId × ServerMessage)) : Prop :=
  (extra = [] ∧ play.online c = false) ∨
    ∃ msg, extra = [(c, .leftRoom msg)]

theorem Farewell.noTurn
    (hFarewell : play.Farewell c extra) :
    NoTurn extra := by
  intro d
  rcases hFarewell with ⟨rfl, _⟩ | ⟨msg, rfl⟩
  · rfl
  · rw [turnsTo_singleton]
    simp [bearsTurn]

/- Neither the room's news nor a farewell bears a turn. -/
theorem turnsTo_departure
    (hOutbox : world.outbox = said ++
      (Mailbox.toAll room.players
        (fun _ => .joinedRoom joined) ++ extra))
    (hFarewell : play.Farewell c extra)
    (d : ConnId) :
    turnsTo d world.outbox = turnsTo d said := by
  have hNews : NoTurn (Mailbox.toAll room.players
      fun _ => .joinedRoom joined) :=
    noTurn_toAll fun _ => rfl
  rw [hOutbox, turnsTo_append, turnsTo_append, hNews d,
    hFarewell.noTurn d]
  rfl

/- Whoever leaves is told, and others outside get no turn. -/
theorem Sound.away_of_departure
    (hSound : play.Sound)
    (hPlayers : room.players = play.room.players.erase c)
    (hOutbox : world.outbox = said ++
      (Mailbox.toAll room.players
        (fun _ => .joinedRoom joined) ++ extra))
    (hFarewell : play.Farewell c extra)
    (hSaid : ∀ d, d ∉ play.room.players →
      turnsTo d said = 0)
    (hOut : d ∉ room.players)
    (hHere : play.online d = true) :
    ((play.taken c rest).dispatch room world).Away d := by
  by_cases hEq : d = c
  · subst hEq
    rcases hFarewell with ⟨_, hOff⟩ | ⟨msg, rfl⟩
    · exact absurd (hHere.symm.trans hOff) (by simp)
    · have hMail : Mailbox.picked some d world.outbox =
          Mailbox.picked some d
            (said ++ Mailbox.toAll room.players
              fun _ => .joinedRoom joined) ++
            [.leftRoom msg] := by
        rw [hOutbox, ← List.append_assoc,
          Mailbox.picked_append]
        simp [Mailbox.picked]
      unfold Away
      change Mailbox.Settles _ _ _ _
        (play.inbox d ++ Mailbox.picked some d world.outbox)
      rw [hMail, ← List.append_assoc]
      exact Mailbox.settles_of_calms trivial
  · have hNot : d ∉ play.room.players := by
      intro hMem
      rw [hPlayers] at hOut
      exact hOut ((List.mem_erase_of_ne hEq).mpr hMem)
    apply (hSound.away d hNot hHere).sent
    intro msg hLetter
    apply not_isQuestion
    apply mild_of_turnsTo _ msg hLetter
    rw [turnsTo_departure hOutbox hFarewell]
    exact hSaid d hNot

/- When a game ends, everybody who stays is told so. -/
theorem ended_of_news
    (hNodup : room.players.Nodup)
    (hOutbox : world.outbox = said ++
      (Mailbox.toAll room.players
        (fun _ => .joinedRoom joined) ++ extra))
    (hFarewell : play.Farewell c extra)
    (hOver : joined.inGame = false)
    (hMem : d ∈ room.players)
    (hNe : d ≠ c) :
    ((play.taken c rest).dispatch room world).Ended d := by
  have hNothing : Mailbox.picked some d extra = [] := by
    rcases hFarewell with ⟨rfl, _⟩ | ⟨msg, rfl⟩
    · rfl
    · simp [Mailbox.picked, hNe.symm]
  have hMail : Mailbox.picked some d world.outbox =
      Mailbox.picked some d said ++ [.joinedRoom joined] := by
    rw [hOutbox, Mailbox.picked_append,
      Mailbox.picked_append, hNothing, List.append_nil,
      Mailbox.picked_toAll_of_mem hNodup hMem rfl]
  unfold Ended
  change Mailbox.Settles _ _ _ _
    (play.inbox d ++ Mailbox.picked some d world.outbox)
  rw [hMail, ← List.append_assoc]
  exact Mailbox.settles_of_calms hOver

/- A player leaves a room without a game. -/
theorem Sound.of_departure_ended
    (hSound : play.Sound)
    (hFirst : play.requests c = request :: rest)
    (hMem : c ∈ play.room.players)
    (hSession : play.room.gameSession = none)
    (hOk : play.room.removePlayer play.world c shuffles =
      .ok (removed, room, left))
    (hOutbox : world.outbox = left.outbox ++ extra)
    (hFarewell : play.Farewell c extra) :
    ((play.taken c rest).dispatch room world).Sound := by
  rcases Room.removePlayer_of_ok hSound.ordered hMem hOk with
    ⟨hOrdered, _, hRoom⟩
  have hPlayers : room.players =
      play.room.players.erase c := by
    rw [hRoom]
  rcases Room.removePlayer_outbox hMem hOk with
    ⟨changed, w, joined, hChanged, hSame, hGame, hNews⟩
  unfold Room.removeFromSession at hChanged
  rw [hSession] at hChanged
  cases hChanged
  have hOver : joined.inGame = false := by
    rw [hGame, hSame, hSession]
    rfl
  rw [hNews, hSound.sent, ← hPlayers, List.append_assoc]
    at hOutbox
  apply hSound.of_server hFirst hOrdered
  · rw [hSame, hSession]
    exact fun s hs => by cases hs
  · rw [hSame, hSession]
    exact fun s hs => by cases hs
  · intro _ d hd
    have hNe : d ≠ c := by
      rintro rfl
      rw [hPlayers] at hd
      exact hSound.ordered.nodup.not_mem_erase hd
    exact ended_of_news hOrdered.nodup hOutbox hFarewell hOver
      hd hNe
  · intro d hOut hHere
    exact hSound.away_of_departure hPlayers hOutbox hFarewell
      (fun _ _ => rfl) hOut hHere

/- A player leaves a game and spares the turns. -/
theorem Sound.of_departure
    {s : GameSession}
    (hSound : play.Sound)
    (hFirst : play.requests c = request :: rest)
    (hMem : c ∈ play.room.players)
    (hSession : play.room.gameSession = some s)
    (hSpares : ∀ p ∈ play.room.players, p ≠ c →
      play.turns p ≠ 0 →
        s.players.length ≤ 2 ∨ s.StaysOpen c)
    (hOk : play.room.removePlayer play.world c shuffles =
      .ok (removed, room, left))
    (hOutbox : world.outbox = left.outbox ++ extra)
    (hFarewell : play.Farewell c extra) :
    ((play.taken c rest).dispatch room world).Sound := by
  have hServes := hSound.ordered.served s hSession
  have hInOrder := hSound.ordered.session_inOrder hSession
  have hMapped := hServes.mapped c hMem
  have hSeated : c ∈ s.players := by
    rw [hServes.players_eq]
    exact hMem
  rcases Room.removePlayer_of_ok hSound.ordered hMem hOk with
    ⟨hOrdered, _, hRoom⟩
  have hPlayers : room.players =
      play.room.players.erase c := by
    rw [hRoom]
  rcases Room.removePlayer_outbox hMem hOk with
    ⟨changed, w, joined, hChanged, hSame, hGame, hNews⟩
  rcases Room.removeFromSession_of_ok hSound.ordered hMem
      hChanged with ⟨_, hRest, _⟩
  rcases Room.removeFromSession_calls hSession hChanged with
    ⟨called, pending, t, hCall, hFinish, hKept, rfl⟩
  rcases GameSession.removePlayer_asks hInOrder
      (hSound.inHand s hSession) hServes.idle hCall
      hFinish with
    ⟨hInHand, entries, hLog, hAsks⟩
  have hLeft : t.players = play.room.players.erase c :=
    Room.players_of_removed hServes hMem hCall hFinish
  have hOthers : changed.players.erase c = room.players := by
    rw [hRest, hPlayers]
  rw [hNews, Room.outbox_performSince hLog, hSound.sent,
    List.nil_append, hOthers, List.append_assoc] at hOutbox
  have hTurns := turnsTo_departure hOutbox hFarewell
  apply hSound.of_server hFirst hOrdered
  · rw [hSame, hKept]
    intro u hu
    split at hu
    · cases hu
      exact hInHand
    · cases hu
  · rw [hSame, hKept]
    intro u hu d hd
    split at hu
    swap
    · cases hu
    rename_i hEnough
    cases hu
    rw [hPlayers] at hd
    have hIn : d ∈ play.room.players :=
      List.mem_of_mem_erase hd
    have hNe : d ≠ c := by
      rintro rfl
      exact hSound.ordered.nodup.not_mem_erase hd
    have hLess := turns_taken_le hFirst d
    rw [hTurns]
    by_cases hHolder : ∃ p ∈ play.room.players,
        p ≠ c ∧ play.turns p ≠ 0
    · rcases hHolder with ⟨p, hp, hOther, hHolds⟩
      have hTurn := (hSound.held s hSession p hp).2 hHolds
      rcases hSpares p hp hOther hHolds with hFew | hStays
      · -- One player does not make a game.
        have hLength := List.length_erase_of_mem hMem
        have hTwo : 2 ≤ t.players.length := hEnough
        rw [hServes.players_eq] at hFew
        rw [hLeft] at hTwo
        omega
      · rcases GameSession.onTurn_of_staysOpen hInOrder
            hServes.idle hMapped hSeated hTurn hOther hStays
            hCall hFinish hEnough with
          ⟨hStill, entries', hLog', hNone⟩
        have hOne : entries' = entries :=
          List.append_cancel_left (hLog'.symm.trans hLog)
        rw [hOne] at hNone
        rcases hSound.held s hSession d hIn with
          ⟨hOnce, hHas⟩
        rw [hNone d]
        refine ⟨by omega, fun hSome => ?_⟩
        have hSeat := (hHas (by omega)).2
        rw [hTurn.2] at hSeat
        rw [← Option.some.inj hSeat]
        exact hStill
    · have hZero : play.turns d = 0 := by
        by_contra hHolds
        exact hHolder ⟨d, hIn, hNe, hHolds⟩
      have hNow : (play.taken c rest).turns d = 0 := by
        omega
      rw [hNow, Nat.zero_add]
      exact hAsks d
  · intro hNone d hd
    have hNe : d ≠ c := by
      rintro rfl
      rw [hPlayers] at hd
      exact hSound.ordered.nodup.not_mem_erase hd
    have hOver : joined.inGame = false := by
      rw [hGame, hNone]
      rfl
    exact ended_of_news hOrdered.nodup hOutbox hFarewell hOver
      hd hNe
  · intro d hOut hHere
    refine hSound.away_of_departure hPlayers hOutbox hFarewell
      ?_ hOut hHere
    intro e hNot
    by_contra hSome
    have hSeat := List.mem_of_getElem? ((hAsks e).2 hSome).2
    rw [hLeft] at hSeat
    exact hNot (List.mem_of_mem_erase hSeat)

end Serving

------------------------------------------------------------
-- Runs
------------------------------------------------------------

section Runs

variable {move : Move}
variable {trace : List (Play × Move)}

/- Whoever is not in a room cannot act there. -/
theorem Sound.of_refusal
    {request : Request}
    {rest : List Request}
    {msg : Error}
    (hSound : play.Sound)
    (hFirst : play.requests c = request :: rest)
    (hOut : c ∉ play.room.players) :
    ((play.taken c rest).dispatch play.room
      (play.world.send c (.error msg))).Sound := by
  have hOutbox : (play.world.send c (.error msg)).outbox =
      [(c, .error msg)] := by
    unfold World.send
    rw [hSound.sent]
    rfl
  apply hSound.of_still hFirst rfl
  · intro d hd
    have hNe : c ≠ d := fun hEq => hOut (hEq ▸ hd)
    rw [hOutbox, turnsTo_singleton, if_neg (fun h => hNe h.1)]
  · intro d _ m hLetter
    rw [hOutbox] at hLetter
    rcases List.mem_filterMap.mp hLetter with
      ⟨letter, hMem, hPicked⟩
    rw [List.mem_singleton.mp hMem] at hPicked
    dsimp only at hPicked
    split at hPicked
    · cases hPicked
      rfl
    · cases hPicked

/- What is no action is a departure. -/
theorem Sound.departs_of_handle
    {request : Request}
    {rest : List Request}
    {shuffles : List Shuffle}
    {room : Room}
    {world : World}
    (hSound : play.Sound)
    (hFirst : play.requests c = request :: rest)
    (hAction : request.isAction = false)
    (hHandle : play.handle c shuffles request =
      .ok (room, world)) :
    ∃ removed left extra,
      play.room.removePlayer play.world c shuffles =
        .ok (removed, room, left) ∧
      world.outbox = left.outbox ++ extra ∧
      play.Farewell c extra := by
  cases request with
  | playerAction msg => cases hAction
  | leaveRoom =>
      rcases Except.bind_eq_ok.mp hHandle with
        ⟨⟨removed, after, left⟩, hRemove, hEnd⟩
      cases hEnd
      exact ⟨removed, left, _, hRemove, rfl, Or.inr ⟨_, rfl⟩⟩
  | closed =>
      rcases Except.bind_eq_ok.mp hHandle with
        ⟨⟨removed, after, left⟩, hRemove, hEnd⟩
      cases hEnd
      refine ⟨removed, world, [], hRemove,
        (List.append_nil _).symm, Or.inl ⟨rfl, ?_⟩⟩
      apply hSound.closing c
      rw [hFirst]
      exact List.mem_cons_self ..

/- Whoever is not in a room leaves nothing behind. -/
theorem Sound.of_stranger
    {request : Request}
    {rest : List Request}
    {shuffles : List Shuffle}
    {room : Room}
    {world left : World}
    {removed : Bool}
    {extra : List (PlayerId × ServerMessage)}
    (hSound : play.Sound)
    (hFirst : play.requests c = request :: rest)
    (hOut : c ∉ play.room.players)
    (hRemove : play.room.removePlayer play.world c shuffles =
      .ok (removed, room, left))
    (hOutbox : world.outbox = left.outbox ++ extra)
    (hFarewell : play.Farewell c extra) :
    ((play.taken c rest).dispatch room world).Sound := by
  unfold Room.removePlayer at hRemove
  rw [if_pos hOut] at hRemove
  cases hRemove
  rw [hSound.sent, List.nil_append] at hOutbox
  apply hSound.of_still hFirst rfl
  · intro d _
    rw [hOutbox]
    exact hFarewell.noTurn d
  · intro d _ m hLetter
    rw [hOutbox] at hLetter
    apply not_isQuestion
    exact mild_of_turnsTo (hFarewell.noTurn d) m hLetter

/- A request is served and the turns are spared. -/
theorem Sound.serve
    {shuffles : List Shuffle}
    (hSound : play.Sound)
    (hSpares : play.SparesTurns (.serve c shuffles))
    (hOk : play.serve c shuffles = .ok after) :
    after.Sound := by
  unfold Play.serve at hOk
  cases hFirst : play.requests c with
  | nil =>
      rw [hFirst] at hOk
      cases hOk
  | cons request rest =>
      rw [hFirst] at hOk
      rcases Except.bind_eq_ok.mp hOk with
        ⟨⟨room, world⟩, hHandle, hEnd⟩
      cases hEnd
      change ((play.taken c rest).dispatch room world).Sound
      cases hAction : request.isAction with
      | true =>
          cases request with
          | playerAction msg =>
              by_cases hMem : c ∈ play.room.players
              · simp only [handle, if_pos hMem] at hHandle
                exact hSound.of_action hFirst hMem hHandle
              · simp only [handle, if_neg hMem] at hHandle
                cases hHandle
                exact hSound.of_refusal hFirst hMem
          | leaveRoom => cases hAction
          | closed => cases hAction
      | false =>
          rcases hSound.departs_of_handle hFirst hAction
              hHandle with
            ⟨removed, left, extra, hRemove, hOutbox, hFarewell⟩
          by_cases hMem : c ∈ play.room.players
          · cases hSession : play.room.gameSession with
            | none =>
                exact hSound.of_departure_ended hFirst hMem
                  hSession hRemove hOutbox hFarewell
            | some s =>
                have hLeaves : play.Leaves c := by
                  refine ⟨hMem, ?_⟩
                  rw [hFirst]
                  cases request with
                  | playerAction msg => cases hAction
                  | leaveRoom => exact Or.inl rfl
                  | closed => exact Or.inr rfl
                exact hSound.of_departure hFirst hMem hSession
                  (hSpares hLeaves s hSession) hRemove hOutbox
                  hFarewell
          · exact hSound.of_stranger hFirst hMem hRemove
              hOutbox hFarewell

/- Every move that spares the turns keeps the play sound. -/
theorem Sound.step
    (hSound : play.Sound)
    (hSpares : play.SparesTurns move)
    (hOk : play.step move = .ok after) :
    after.Sound := by
  cases move with
  | act client action amount =>
      simp only [Play.step] at hOk
      split at hOk
      · rename_i hHere
        cases hOk
        exact hSound.act hHere action amount
      · cases hOk
  | leave client =>
      simp only [Play.step] at hOk
      split at hOk
      · cases hOk
        exact hSound.leave
      · cases hOk
  | hangUp client =>
      simp only [Play.step] at hOk
      split at hOk
      · cases hOk
        exact hSound.hangUp
      · cases hOk
  | deliver client =>
      simp only [Play.step] at hOk
      split at hOk
      · rename_i hHere
        exact hSound.deliver hHere hOk
      · cases hOk
  | serve client shuffles => exact hSound.serve hSpares hOk

/- A game that was just started is sound. -/
theorem Opening.sound
    (hOpening : play.Opening) :
    play.Sound := by
  rcases hOpening with ⟨room, world, shuffles, hOrder, hStart⟩
  unfold Play.start at hStart
  rcases Except.bind_eq_ok.mp hStart with
    ⟨⟨error, started, sent⟩, hTry, hEnd⟩
  cases error with
  | some code => cases hEnd
  | none =>
      cases hEnd
      rcases Room.asks_of_start hOrder hTry with
        ⟨t, entries, hSession, hOrdered, hInHand, hOutbox,
          hAsks⟩
      have hServes := hOrdered.served t hSession
      have hMail : ∀ d, d ∉ started.players →
          turnsTo d sent.outbox = 0 := by
        intro d hOut
        rw [hOutbox]
        by_contra hSome
        have hSeat := List.mem_of_getElem?
          ((hAsks d).2 hSome).2
        rw [hServes.players_eq] at hSeat
        exact hOut hSeat
      refine ⟨hOrdered, rfl, ?_, ?_, ?_, ?_, ?_, ?_⟩
      · intro u hu
        have hSame : t = u := Option.some.inj
          (hSession.symm.trans (Option.mem_def.mp hu))
        rw [← hSame]
        exact hInHand
      · intro d hOff
        cases hOff
      · intro d hMem
        cases hMem
      · intro u hu d _
        have hSame : t = u := Option.some.inj
          (hSession.symm.trans (Option.mem_def.mp hu))
        rw [← hSame, turns_dispatch]
        have hNothing : turns {
            room := room
            world := world
            clients := waiting world
            online := fun _ => true
            inbox := fun _ => []
            requests := fun _ => [] } d = 0 := rfl
        rw [hNothing, Nat.zero_add, hOutbox]
        exact hAsks d
      · intro hNone
        exact absurd (hSession.symm.trans hNone) (by simp)
      · intro d hOut _
        refine Or.inl ⟨⟨rfl, rfl⟩, ?_⟩
        intro m hLetter
        apply not_isQuestion
        exact mild_of_turnsTo (hMail d hOut) m hLetter

/-
  While no departure takes a turn from a player who holds
  it, a client that has processed everything it was sent and
  shows a turn is that of the player on turn in a hand that
  is in progress.
-/
theorem Run.noStaleTurn
    (run : Run trace play)
    (hSpares : ∀ p ∈ trace, p.1.SparesTurns p.2)
    (hRead : play.inbox c = [])
    (hTurn : (play.clients c).state.yourTurn.isSome = true) :
    ∃ s, play.room.gameSession = some s ∧ s.InProgress ∧
      s.players[s.currentPlayerIndex]? = some c := by
  rcases run with ⟨opening, hOpening, run⟩
  have hSound : play.Sound :=
    run.invariant (fun _ _ _ hInv hCond hOk =>
      Sound.step hInv hCond hOk) hSpares hOpening.sound
  have hShown : (play.clients c).hasTurn = true := hTurn
  by_cases hMem : c ∈ play.room.players
  · cases hSession : play.room.gameSession with
    | none =>
        have hEnded := hSound.ended hSession c hMem
        unfold Ended at hEnded
        rw [hRead] at hEnded
        rw [hEnded.isCalm] at hShown
        cases hShown
    | some s =>
        have hHolds : play.turns c ≠ 0 := by
          unfold turns
          rw [hShown]
          simp
        have hOn := (hSound.held s hSession c hMem).2 hHolds
        exact ⟨s, rfl, hOn.1, hOn.2⟩
  · cases hHere : play.online c with
    | false =>
        rw [hSound.offline c hHere] at hShown
        cases hShown
    | true =>
        have hAway := hSound.away c hMem hHere
        unfold Away at hAway
        rw [hRead] at hAway
        rw [hAway.isCalm.1] at hShown
        cases hShown

end Runs

------------------------------------------------------------
-- A Turn that Is Over
------------------------------------------------------------

section Examples

instance
    (s : GameSession)
    (q : PlayerId) :
    Decidable (s.StaysOpen q) :=
  inferInstanceAs (Decidable (_ ∧ _))

instance
    (play : Play)
    (c : ConnId) :
    Decidable (∀ s ∈ play.room.gameSession,
      ∀ p ∈ play.room.players, p ≠ c → play.turns p ≠ 0 →
        s.players.length ≤ 2 ∨ s.StaysOpen c) :=
  inferInstanceAs (Decidable (∀ _ ∈ _, _))

instance
    (play : Play) :
    (move : Move) → Decidable (play.SparesTurns move)
| .serve c _ =>
    inferInstanceAs (Decidable (play.Leaves c → _))
| .deliver _ => isTrue trivial
| .act _ _ _ => isTrue trivial
| .leave _ => isTrue trivial
| .hangUp _ => isTrue trivial

/- Three clients wait in a room. -/
def threeWaiting : Room where
  id := 1
  name := "table"
  maxPlayers := 3
  host := 0
  players := [0, 1, 2]

def threeNames : World where
  names := fun c =>
    if c = 0 then "Alice" else if c = 1 then "Bob" else "Carol"
  repository := none

theorem threeWaiting_inOrder : threeWaiting.InOrder where
  nodup := by decide
  bounded := by decide
  roomy := by decide
  served := by
    intro s hs
    cases hs

/- The hands of a test are dealt from sorted decks. -/
def unshuffled : List Shuffle := List.replicate 4 .unshuffled

/- Moves from a game of three pass a test. -/
def threePass
    (moves : List Move)
    (test : List (Play × Move) → Play → Bool) : Bool :=
  match start threeWaiting threeNames unshuffled with
  | .ok play => Transition.passes step play moves test
  | .error _ => false

theorem exists_run_of_threePass
    {moves : List Move}
    {test : List (Play × Move) → Play → Bool}
    (hPass : threePass moves test = true) :
    ∃ trace play, Run trace play ∧ test trace play = true := by
  unfold threePass at hPass
  split at hPass
  · rename_i opening hStart
    rcases Transition.exists_run_of_passes hPass with
      ⟨trace, play, run, hTest⟩
    exact ⟨trace, play, ⟨opening,
      ⟨threeWaiting, threeNames, unshuffled,
        threeWaiting_inOrder, hStart⟩, run⟩, hTest⟩
  · cases hPass

/- The player on turn sees his turn while another one leaves. -/
theorem bobLeaves_noStaleTurn :
    ∃ trace play,
      Run trace play ∧
        (∀ p ∈ trace, p.1.SparesTurns p.2) ∧
        (play.clients 0).state.yourTurn.isSome = true ∧
        play.room.players = [0, 2] ∧
        ∃ s, play.room.gameSession = some s ∧ s.InProgress ∧
          s.players[s.currentPlayerIndex]? = some 0 := by
  have hPass : threePass
      (List.replicate 2 (.deliver 0) ++
        [.leave 1, .serve 1 unshuffled] ++
        List.replicate 2 (.deliver 0))
      (fun trace play =>
        decide ((∀ p ∈ trace, p.1.SparesTurns p.2) ∧
          play.inbox 0 = [] ∧
          (play.clients 0).state.yourTurn.isSome = true ∧
          play.room.players = [0, 2])) = true := by
    decide +kernel
  rcases exists_run_of_threePass hPass with
    ⟨trace, play, run, hTest⟩
  rcases of_decide_eq_true hTest with
    ⟨hSpares, hRead, hTurn, hPlayers⟩
  exact ⟨trace, play, run, hSpares, hTurn, hPlayers,
    run.noStaleTurn hSpares hRead hTurn⟩

/-
  Alice, Bob and Carol: Alice and Bob call, Carol is asked
  and Alice leaves.  The turn passes to Bob, and Carol, who
  has read everything, still shows hers.
-/
theorem aliceLeaves_staleTurn :
    ¬ ∀ trace play c, Run trace play →
      play.inbox c = [] →
      (play.clients c).state.yourTurn.isSome = true →
      ∃ s, play.room.gameSession = some s ∧ s.InProgress ∧
        s.players[s.currentPlayerIndex]? = some c := by
  intro hAll
  have hPass : threePass
      (List.replicate 2 (.deliver 0) ++
        [.act 0 .call none, .serve 0 unshuffled] ++
        List.replicate 3 (.deliver 1) ++
        [.act 1 .call none, .serve 1 unshuffled] ++
        List.replicate 4 (.deliver 2) ++
        [.leave 0, .serve 0 unshuffled] ++
        List.replicate 2 (.deliver 2))
      (fun _ play =>
        decide (play.inbox 2 = [] ∧
          (play.clients 2).state.yourTurn.isSome = true ∧
          play.room.gameSession.map (fun s =>
            s.players[s.currentPlayerIndex]?) =
              some (some 1))) = true := by
    decide +kernel
  rcases exists_run_of_threePass hPass with
    ⟨trace, play, run, hTest⟩
  rcases of_decide_eq_true hTest with ⟨hRead, hTurn, hBob⟩
  rcases hAll trace play 2 run hRead hTurn with
    ⟨s, hSession, _, hOn⟩
  rw [hSession, Option.map_some, hOn] at hBob
  cases hBob

end Examples

end Play

end Poker

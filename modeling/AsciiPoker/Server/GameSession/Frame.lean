import AsciiPoker.Library.Word32
import AsciiPoker.Server.GameSession.Operations

/-
  What the functions of a session leave alone.

  `Quiet s t` holds when `t` differs from `s` in the log and
  the noted bankrolls alone, and nobody was asked to act in
  between.  Broadcasting and persisting are quiet.

  Main declarations:
    * `GameSession.turnsAsked`, `GameSession.Quiet`
    * `GameSession.broadcastState_quiet`,
      `GameSession.persistAllChips_quiet`
    * `GameSession.contribute_chips` and its siblings
-/

------------------------------------------------------------
-- Turns
------------------------------------------------------------

namespace Poker

namespace Server

open Protocol

/- The player an effect asks to act. -/
def Effect.turnOf : Effect → Option PlayerId
| .send player (.yourTurn _) => some player
| _ => none

namespace GameSession

/- Everybody who was sent a `YourTurn`, oldest first. -/
def turnsAsked
    (s : GameSession) : List PlayerId :=
  s.log.filterMap Effect.turnOf

------------------------------------------------------------
-- Quiet Changes
------------------------------------------------------------

/- Only the log and the noted bankrolls differ. -/
def Quiet
    (s t : GameSession) : Prop :=
  ∃ bankrolls log,
    t = { s with bankrolls := bankrolls, log := log } ∧
      t.turnsAsked = s.turnsAsked

/- To do nothing is quiet. -/
theorem Quiet.refl
    (s : GameSession) :
    Quiet s s :=
  ⟨s.bankrolls, s.log, rfl, rfl⟩

/- So is one quiet call after the other. -/
theorem Quiet.trans
    {s t u : GameSession}
    (hFirst : Quiet s t)
    (hSecond : Quiet t u) :
    Quiet s u := by
  rcases hFirst with ⟨b, l, rfl, hTurns⟩
  rcases hSecond with ⟨b', l', rfl, hTurns'⟩
  exact ⟨b', l', rfl, hTurns'.trans hTurns⟩

/- Log entries that ask nobody are quiet. -/
theorem quiet_log
    (s : GameSession)
    (bankrolls : KeyMap String UInt32)
    {entries : List Effect}
    (hSilent : entries.filterMap Effect.turnOf = []) :
    Quiet s { s with
      bankrolls := bankrolls
      log := s.log ++ entries } := by
  refine ⟨bankrolls, s.log ++ entries, rfl, ?_⟩
  simp [turnsAsked, hSilent]

/- Sending everybody something else than a turn is quiet. -/
theorem sendAll_quiet
    (s : GameSession)
    {msg : PlayerId → ServerMessage}
    (hOther : ∀ p, Effect.turnOf (.send p (msg p)) = none) :
    Quiet s (s.sendAll msg) := by
  apply quiet_log
  rw [List.filterMap_map]
  simp [hOther]

/- The state is only shown. -/
theorem broadcastState_quiet
    {s t : GameSession}
    (hOk : s.broadcastState = .ok t) :
    Quiet s t := by
  unfold broadcastState at hOk
  cases hStates : s.buildPlayerStates
      (decide (s.phase = .showdown)) with
  | error exn =>
      simp [hStates, bind, Except.bind] at hOk
  | ok states =>
      cases hActive : s.playerAt s.currentPlayerIndex with
      | error exn =>
          simp [hStates, hActive, bind, Except.bind] at hOk
      | ok active =>
          simp only [hStates, hActive, bind, Except.bind,
            Except.ok.injEq] at hOk
          rw [← hOk]
          exact sendAll_quiet s (fun p => rfl)

/- An action is only told of. -/
theorem broadcastActionEvent_quiet
    (s : GameSession)
    (playerName : String)
    (action : Action)
    (amount : Option UInt32) :
    Quiet s
      (s.broadcastActionEvent playerName action amount) :=
  sendAll_quiet s (fun _ => rfl)

/- So is the result of a hand. -/
theorem broadcastHandResult_quiet
    (s : GameSession)
    (winnerNames winnerHandLabels : List String)
    (amount : UInt32) :
    Quiet s
      (s.broadcastHandResult winnerNames winnerHandLabels
        amount) :=
  sendAll_quiet s (fun _ => rfl)

/- A refusal is a message to one player. -/
theorem sendError_quiet
    (s : GameSession)
    (player : PlayerId)
    (code : ErrorCode) :
    Quiet s (s.sendError player code) :=
  quiet_log s s.bankrolls (by rfl)

/- Chips are stored outside of the session. -/
theorem persistPlayerChips_quiet
    (s : GameSession)
    (player : PlayerId) :
    Quiet s (s.persistPlayerChips player) := by
  unfold persistPlayerChips
  by_cases hRepository : s.hasRepository
  · cases hFind : s.chips.find player with
    | none =>
        simpa [hRepository, hFind] using Quiet.refl s
    | some chips =>
        rw [if_pos hRepository]
        exact quiet_log s
          (s.bankrolls.set (s.names player) chips)
          (by rfl)
  · simpa [hRepository] using Quiet.refl s

/- By induction over the seats. -/
theorem persistAllChips_quiet
    (s : GameSession) :
    Quiet s s.persistAllChips := by
  unfold persistAllChips
  suffices hFold : ∀ (ps : List PlayerId) (t : GameSession),
      Quiet t (ps.foldl persistPlayerChips t) from
    hFold s.players s
  intro ps
  induction ps with
  | nil =>
      intro t
      exact Quiet.refl t
  | cons p ps ih =>
      intro t
      exact (persistPlayerChips_quiet t p).trans
        (ih (t.persistPlayerChips p))

------------------------------------------------------------
-- Contributions
------------------------------------------------------------

/- Marking an all-in touches nothing but that mark. -/
theorem markAllInIfNeeded_eq
    (s : GameSession)
    (player : PlayerId) :
    ∃ allIn,
      s.markAllInIfNeeded player =
        { s with allInPlayers := allIn } := by
  unfold markAllInIfNeeded
  by_cases hBroke : s.chips.get player = 0
  · exact ⟨insert player s.allInPlayers, by simp [hBroke]⟩
  · exact ⟨s.allInPlayers, by simp [hBroke]⟩

section Contribute

variable (s : GameSession)
variable (player : PlayerId)
variable (amount : UInt32)

/- A contribution is a transfer and perhaps an all-in mark. -/
theorem contribute_eq :
    ∃ allIn,
      s.contribute player amount =
        { s.moveToPot player (s.actualAmount player amount)
          with allInPlayers := allIn } :=
  markAllInIfNeeded_eq _ player

/- What the player gives, he has no more. -/
@[simp] theorem contribute_chips :
    (s.contribute player amount).chips =
      s.chips.set player
        (s.chips.get player -
          s.actualAmount player amount) := by
  rcases s.contribute_eq player amount with ⟨_, h⟩
  rw [h]
  rfl

/- It counts for the round. -/
@[simp] theorem contribute_roundBets :
    (s.contribute player amount).roundBets =
      s.roundBets.set player
        (s.roundBets.get player +
          s.actualAmount player amount) := by
  rcases s.contribute_eq player amount with ⟨_, h⟩
  rw [h]
  rfl

/- And for the side pots of the hand. -/
@[simp] theorem contribute_totalContributed :
    (s.contribute player amount).totalContributed =
      s.totalContributed.set player
        (s.totalContributed.get player +
          s.actualAmount player amount) := by
  rcases s.contribute_eq player amount with ⟨_, h⟩
  rw [h]
  rfl

/- And lies in the pot. -/
@[simp] theorem contribute_pot :
    (s.contribute player amount).pot =
      s.pot + s.actualAmount player amount := by
  rcases s.contribute_eq player amount with ⟨_, h⟩
  rw [h]
  rfl

/- The fields that a contribution does not touch. -/
theorem contribute_frame :
    let t := s.contribute player amount
    t.players = s.players ∧
      t.connectionMap = s.connectionMap ∧
      t.names = s.names ∧
      t.bankrolls = s.bankrolls ∧
      t.foldedPlayers = s.foldedPlayers ∧
      t.currentBet = s.currentBet ∧
      t.phase = s.phase ∧
      t.dealerIndex = s.dealerIndex ∧
      t.currentPlayerIndex = s.currentPlayerIndex ∧
      t.turnsAsked = s.turnsAsked := by
  rcases s.contribute_eq player amount with ⟨_, h⟩
  rw [h]
  exact ⟨rfl, rfl, rfl, rfl, rfl, rfl, rfl, rfl, rfl, rfl⟩

/- Whether there is a repository never changes. -/
theorem contribute_hasRepository :
    (s.contribute player amount).hasRepository =
      s.hasRepository := by
  rcases s.contribute_eq player amount with ⟨_, hEq⟩
  rw [hEq]
  rfl

/- A raise is noted elsewhere. -/
theorem contribute_lastRaiseIncrement :
    (s.contribute player amount).lastRaiseIncrement =
      s.lastRaiseIncrement := by
  rcases s.contribute_eq player amount with ⟨_, hEq⟩
  rw [hEq]
  rfl

/- So is who has acted. -/
theorem contribute_playersActed :
    (s.contribute player amount).playersActed =
      s.playersActed := by
  rcases s.contribute_eq player amount with ⟨_, hEq⟩
  rw [hEq]
  rfl

/- Nobody is told. -/
theorem contribute_log :
    (s.contribute player amount).log = s.log := by
  rcases s.contribute_eq player amount with ⟨_, hEq⟩
  rw [hEq]
  rfl

/- No more is moved than the player has. -/
theorem actualAmount_le_chips :
    s.actualAmount player amount ≤ s.chips.get player := by
  unfold actualAmount
  rw [UInt32.le_iff_toNat_le, UInt32.toNat_min]
  exact Nat.min_le_right _ _

/- No more is moved than was asked for. -/
theorem actualAmount_le_amount :
    s.actualAmount player amount ≤ amount := by
  unfold actualAmount
  rw [UInt32.le_iff_toNat_le, UInt32.toNat_min]
  exact Nat.min_le_left _ _

/- A stack that holds the amount is charged all of it. -/
theorem actualAmount_eq
    {s : GameSession}
    {player : PlayerId}
    {amount : UInt32}
    (hEnough : amount ≤ s.chips.get player) :
    s.actualAmount player amount = amount := by
  unfold actualAmount
  apply UInt32.toNat_inj.mp
  rw [UInt32.toNat_min]
  exact Nat.min_eq_left (UInt32.le_iff_toNat_le.mp hEnough)

end Contribute

end GameSession

end Server

end Poker

import AsciiPoker.Server.GameSession.Places
import AsciiPoker.Server.GameSession.Settlement

/-
  The raw pointers that a session holds.

  `players_` owns the players.  Seven other containers are
  keyed by `IPlayer*`, and `connection_map_` leads from an
  `IConnection*` to an `IPlayer*`.  Nothing but the code of
  the session takes care that these are pointers to players
  it still owns.

  Main declarations:
    * `KeysWithin`, `GameSession.Owned`
    * `Config.Safe`, `Config.Safe.step`
    * `Table.Run.safe`
-/

------------------------------------------------------------
-- Keys
------------------------------------------------------------

namespace Poker

namespace Server

open Protocol

/- All keys of the map are among these. -/
def KeysWithin
    {K V : Type}
    (m : KeyMap K V)
    (keys : List K) : Prop :=
  ∀ k, (m.find k).isSome → k ∈ keys

section KeysWithin

variable {K V : Type}
variable {m : KeyMap K V}
variable {keys : List K}

/- An empty map has no keys. -/
theorem keysWithin_empty
    (keys : List K) :
    KeysWithin (.empty : KeyMap K V) keys := by
  intro k hSome
  cases hSome

/- To change the values leaves the keys. -/
theorem KeysWithin.mapValues
    {f : V → V}
    (hWithin : KeysWithin m keys) :
    KeysWithin (m.mapValues f) keys := by
  intro j hSome
  rw [KeyMap.find_mapValues, Option.isSome_map] at hSome
  exact hWithin j hSome

variable [DecidableEq K]
variable {k : K}

/- A key is added that may be there. -/
theorem KeysWithin.set
    {v : V}
    (hWithin : KeysWithin m keys)
    (hMem : k ∈ keys) :
    KeysWithin (m.set k v) keys := by
  intro j hSome
  rw [KeyMap.find_set] at hSome
  split at hSome
  next hSame => exact hSame ▸ hMem
  next => exact hWithin j hSome

/- A key that is erased may be missing from the keys. -/
theorem KeysWithin.erase
    {rest : List K}
    (hWithin : KeysWithin m keys)
    (hRest : ∀ j ∈ keys, j ≠ k → j ∈ rest) :
    KeysWithin (m.erase k) rest := by
  intro j hSome
  rw [KeyMap.find_erase] at hSome
  split at hSome
  · cases hSome
  next hNe => exact hRest j (hWithin j hSome) hNe

end KeysWithin

------------------------------------------------------------
-- Sessions
------------------------------------------------------------

namespace GameSession

/-
  Every pointer to a player that the session holds is to a
  player it owns, and no two connections lead to one player.
-/
structure Owned
    (s : GameSession) : Prop where
  connections : ∀ c p,
    s.connectionMap.find c = some p → p ∈ s.players
  injective : ∀ c d p,
    s.connectionMap.find c = some p →
      s.connectionMap.find d = some p → c = d
  hands : KeysWithin s.hands s.players
  chips : KeysWithin s.chips s.players
  roundBets : KeysWithin s.roundBets s.players
  totalContributed : KeysWithin s.totalContributed s.players
  foldedPlayers : ∀ p ∈ s.foldedPlayers, p ∈ s.players
  allInPlayers : ∀ p ∈ s.allInPlayers, p ∈ s.players
  playersActed : ∀ p ∈ s.playersActed, p ∈ s.players

variable {s t : GameSession}
variable {p : PlayerId}

/- The containers of the session that hold pointers. -/
def SamePointers
    (s t : GameSession) : Prop :=
  t = { t with
    players := s.players
    connectionMap := s.connectionMap
    hands := s.hands
    chips := s.chips
    roundBets := s.roundBets
    totalContributed := s.totalContributed
    foldedPlayers := s.foldedPlayers
    allInPlayers := s.allInPlayers
    playersActed := s.playersActed }

/- The containers are all that counts. -/
theorem Owned.of_same
    (hOwned : s.Owned)
    (hSame : s.SamePointers t) :
    t.Owned := by
  rw [hSame]
  exact ⟨hOwned.connections, hOwned.injective, hOwned.hands,
    hOwned.chips, hOwned.roundBets, hOwned.totalContributed,
    hOwned.foldedPlayers, hOwned.allInPlayers,
    hOwned.playersActed⟩

/- To tell changes none of them. -/
theorem Quiet.owned
    (hQuiet : s.Quiet t)
    (hOwned : s.Owned) :
    t.Owned := by
  rcases hQuiet with ⟨_, _, rfl, _⟩
  exact hOwned.of_same rfl

/- A new round begins with nobody having acted. -/
theorem Owned.forgetActed
    (hOwned : s.Owned) :
    { s with playersActed := ∅ : GameSession }.Owned :=
  ⟨hOwned.connections, hOwned.injective, hOwned.hands,
    hOwned.chips, hOwned.roundBets, hOwned.totalContributed,
    hOwned.foldedPlayers, hOwned.allInPlayers, by simp⟩

/- Chips are counted for a seated player. -/
theorem Owned.contribute
    (hOwned : s.Owned)
    (hMem : p ∈ s.players)
    (amount : UInt32) :
    (s.contribute p amount).Owned := by
  rw [show s.contribute p amount =
    (s.moveToPot p (s.actualAmount p amount)).markAllInIfNeeded
      p from rfl]
  generalize s.actualAmount p amount = actual
  have hMoved : (s.moveToPot p actual).Owned :=
    ⟨hOwned.connections, hOwned.injective, hOwned.hands,
      hOwned.chips.set hMem, hOwned.roundBets.set hMem,
      hOwned.totalContributed.set hMem, hOwned.foldedPlayers,
      hOwned.allInPlayers, hOwned.playersActed⟩
  unfold markAllInIfNeeded
  split
  · refine ⟨hMoved.connections, hMoved.injective,
      hMoved.hands, hMoved.chips, hMoved.roundBets,
      hMoved.totalContributed, hMoved.foldedPlayers, ?_,
      hMoved.playersActed⟩
    intro q hq
    rcases Finset.mem_insert.mp hq with rfl | hOld
    · exact hMem
    · exact hMoved.allInPlayers q hOld
  · exact hMoved

/- He still sits when he folds. -/
theorem Owned.foldLeaver
    (hOwned : s.Owned)
    (hMem : p ∈ s.players) :
    (s.foldLeaver p).Owned := by
  refine ⟨hOwned.connections, hOwned.injective, hOwned.hands,
    hOwned.chips, hOwned.roundBets, hOwned.totalContributed,
    ?_, hOwned.allInPlayers, hOwned.playersActed⟩
  intro q hq
  rcases Finset.mem_insert.mp hq with rfl | hOld
  · exact hMem
  · exact hOwned.foldedPlayers q hOld

/- Only who sits can act. -/
theorem Acts.owned
    {action : Action}
    {amount : Option UInt32}
    (hActs : s.Acts p action amount t)
    (hMem : p ∈ s.players)
    (hOwned : s.Owned) :
    t.Owned := by
  cases hActs with
  | fold => exact hOwned.foldLeaver hMem
  | check => exact hOwned
  | callNothing => exact hOwned
  | call => exact hOwned.contribute hMem _
  | raise =>
      exact (hOwned.contribute hMem _).of_same rfl

/- Who has acted is seated. -/
theorem Owned.recordPlayerAction
    (hOwned : s.Owned)
    (hMem : p ∈ s.players)
    (action : Action) :
    (s.recordPlayerAction p action).Owned := by
  refine ⟨hOwned.connections, hOwned.injective, hOwned.hands,
    hOwned.chips, hOwned.roundBets, hOwned.totalContributed,
    hOwned.foldedPlayers, hOwned.allInPlayers, ?_⟩
  intro q hq
  rcases Finset.mem_insert.mp hq with rfl | hOld
  · exact hMem
  · split at hOld
    · cases hOld
    · exact hOwned.playersActed q hOld

/- Dealing a player in binds keys of his own. -/
theorem Owned.dealPlayer
    (hOwned : s.Owned)
    (hMem : p ∈ s.players)
    (hOk : s.dealPlayer p = .ok t) :
    t.Owned ∧ t.players = s.players := by
  rcases dealPlayer_of_ok hOk with ⟨_, _, _, _, rfl⟩
  exact ⟨⟨hOwned.connections, hOwned.injective,
    hOwned.hands.set hMem, hOwned.chips.set hMem,
    hOwned.roundBets.set hMem,
    hOwned.totalContributed.set hMem, hOwned.foldedPlayers,
    hOwned.allInPlayers, hOwned.playersActed⟩, rfl⟩

/- The deal gives a hand to every seat. -/
theorem Dealt.owned
    {shuffle : Shuffle}
    (hDealt : s.Dealt shuffle t)
    (hOwned : s.Owned) :
    t.Owned ∧ t.players = s.players := by
  have hClear : (s.clearTable shuffle).Owned :=
    ⟨hOwned.connections, hOwned.injective, hOwned.hands,
      hOwned.chips, hOwned.roundBets, keysWithin_empty _,
      by simp [clearTable], by simp [clearTable],
      hOwned.playersActed⟩
  have hKeep : ∀ p ∈ (s.clearTable shuffle).players,
      ∀ u v : GameSession,
      (u.Owned ∧ u.players = s.players) →
      u.dealPlayer p = .ok v →
      (v.Owned ∧ v.players = s.players) := by
    rintro p hp u v ⟨hHere, hSame⟩ hOk
    have hMem : p ∈ u.players := by
      rw [hSame]
      exact hp
    rcases hHere.dealPlayer hMem hOk with ⟨hNext, hStill⟩
    exact ⟨hNext, hStill.trans hSame⟩
  have hAll := List.foldlM_invariant hKeep hDealt
    ⟨hClear, rfl⟩
  exact hAll

/- The blinds are those of two seats. -/
theorem Owned.postBlinds
    (hOwned : s.Owned)
    (hPosted : s.postBlinds = .ok t) :
    t.Owned := by
  rcases blinds_of_ok hPosted with ⟨sb, bb, hSb, hBb, rfl⟩
  have hSmall := hOwned.contribute
    (List.mem_of_getElem? hSb) SMALL_BLIND
  have hBig := hSmall.contribute (p := bb) (by
    rw [(s.contribute_frame sb _).1]
    exact List.mem_of_getElem? hBb) BIG_BLIND
  exact hBig.of_same rfl

/- A new round starts with empty containers. -/
theorem Owned.clearBets
    (hOwned : s.Owned) :
    s.clearBets.Owned :=
  ⟨hOwned.connections, hOwned.injective, hOwned.hands,
    hOwned.chips, hOwned.roundBets.mapValues,
    hOwned.totalContributed, hOwned.foldedPlayers,
    hOwned.allInPlayers, hOwned.playersActed⟩

/- A pot is paid to players at the table. -/
theorem Owned.payPot
    {award paid : Award}
    {pot : SidePot}
    (hOwned : award.session.Owned)
    (hOk : payPot award pot = .ok paid) :
    paid.session.Owned := by
  have hCredit : ∀ {u : GameSession} {q : PlayerId},
      u.Owned → q ∈ u.players →
      ∀ amount, (u.credit q amount).Owned :=
    fun hHere hMem _ => ⟨hHere.connections, hHere.injective,
      hHere.hands, hHere.chips.set hMem, hHere.roundBets,
      hHere.totalContributed, hHere.foldedPlayers,
      hHere.allInPlayers, hHere.playersActed⟩
  unfold GameSession.payPot at hOk
  rcases Except.bind_eq_ok.mp hOk with
    ⟨contenders, hContenders, hRest⟩
  rcases Except.bind_eq_ok.mp hRest with
    ⟨winners, hWinners, hPaid⟩
  have hSeated : ∀ q ∈ winners,
      q ∈ award.session.players := by
    intro q hq
    rcases (contenders_of_ok hContenders).2 q
        ((findWinnersAmong_sublist hWinners).1.subset hq) with
      ⟨i, _, hi⟩
    exact List.mem_of_getElem? hi
  cases winners with
  | nil =>
      cases hPaid
      exact hOwned
  | cons front rest =>
      dsimp only at hPaid
      split at hPaid
      · cases hPaid
        exact hOwned
      · rcases Except.bind_eq_ok.mp hPaid with
          ⟨each, hEach, hEnd⟩
        have hShare : ∀ share, ∀ q ∈ front :: rest,
            ∀ u v : Award,
            (u.session.Owned ∧
              u.session.players = award.session.players) →
            payWinner share u q = .ok v →
            (v.session.Owned ∧
              v.session.players = award.session.players) := by
          rintro share q hq u v ⟨hHere, hSame⟩ hOne
          rw [payWinner_session hOne]
          refine ⟨hCredit hHere ?_ share, hSame⟩
          rw [hSame]
          exact hSeated q hq
        rcases List.foldlM_invariant (hShare _) hEach
            ⟨hOwned, rfl⟩ with
          ⟨hHere, hSame⟩
        cases hEnd
        dsimp only
        split
        · refine hCredit hHere ?_ _
          rw [hSame]
          exact hSeated front (List.mem_cons_self ..)
        · exact hHere

/- By induction over the pots. -/
theorem Owned.payPots
    {award : Award}
    {pots : List SidePot}
    (hOwned : s.Owned)
    (hPaid : pots.foldlM GameSession.payPot { session := s } =
      .ok award) :
    award.session.Owned := by
  have hKeep : ∀ pot ∈ pots, ∀ u v : Award,
      u.session.Owned → GameSession.payPot u pot = .ok v →
      v.session.Owned :=
    fun _ _ _ _ hHere hOne => hHere.payPot hOne
  have hAll := List.foldlM_invariant hKeep hPaid hOwned
  exact hAll

/- A leaver's keys and his connection go with him. -/
theorem Owned.vacate
    {leaver : Leaver}
    (hOwned : s.Owned)
    (hNodup : s.players.Nodup)
    (hAt : s.players[leaver.removedIndex]? =
      some leaver.player)
    (hMapped : s.connectionMap.find leaver.connection =
      some leaver.player) :
    (s.vacate leaver).Owned := by
  rcases s.vacate_eq leaver with ⟨_, _, hEq, _⟩
  rw [hEq]
  have hRest : ∀ q ∈ s.players, q ≠ leaver.player →
      q ∈ s.players.eraseIdx leaver.removedIndex :=
    fun q hq hNe => (mem_eraseIdx hNodup hAt).mpr ⟨hq, hNe⟩
  have hFound : ∀ c q,
      (s.connectionMap.erase leaver.connection).find c =
        some q →
      c ≠ leaver.connection ∧
        s.connectionMap.find c = some q := by
    intro c q hFind
    rw [KeyMap.find_erase] at hFind
    split at hFind
    · cases hFind
    next hNe => exact ⟨hNe, hFind⟩
  refine ⟨?_, ?_, hOwned.hands.erase hRest,
    hOwned.chips.erase hRest, hOwned.roundBets.erase hRest,
    hOwned.totalContributed.erase hRest, ?_, ?_, ?_⟩
  · intro c q hFind
    rcases hFound c q hFind with ⟨hNe, hHere⟩
    refine hRest q (hOwned.connections c q hHere) ?_
    rintro rfl
    exact hNe (hOwned.injective c leaver.connection _ hHere
      hMapped)
  · intro c d q hc hd
    exact hOwned.injective c d q (hFound c q hc).2
      (hFound d q hd).2
  · intro q hq
    rcases Finset.mem_erase.mp hq with ⟨hNe, hHere⟩
    exact hRest q (hOwned.foldedPlayers q hHere) hNe
  · intro q hq
    rcases Finset.mem_erase.mp hq with ⟨hNe, hHere⟩
    exact hRest q (hOwned.allInPlayers q hHere) hNe
  · intro q hq
    rcases Finset.mem_erase.mp hq with ⟨hNe, hHere⟩
    exact hRest q (hOwned.playersActed q hHere) hNe

end GameSession

------------------------------------------------------------
-- Configurations
------------------------------------------------------------

/-
  No pointer of the session dangles, and a leaver who is
  still at the table is the player of his connection.
-/
structure Config.Safe
    (c : Config) : Prop where
  owned : c.session.Owned
  leaver : ∀ l ∈ c.pending.leaver?,
    c.session.connectionMap.find l.connection =
      some l.player

/- The constructor binds each connection to its own seat. -/
theorem Table.opening_safe
    (table : Table) :
    table.opening.Safe where
  owned := by
    have hSeat : ∀ c p,
        table.roster.connectionMap.find c = some p →
        (c, p) ∈ table.roster.seats := by
      intro c p hFind
      rcases KeyMap.mem_of_find_foldl_set hFind with
        hMem | hNone
      · exact hMem
      · cases hNone
    refine ⟨fun c p hFind => ?_, fun c d p hc hd => ?_,
      keysWithin_empty _, keysWithin_empty _,
      keysWithin_empty _, keysWithin_empty _, ?_, ?_, ?_⟩
    · exact List.mem_map_of_mem (f := Prod.snd) (hSeat c p hFind)
    · exact congrArg Prod.fst (List.inj_on_of_nodup_map
        table.roster.players_nodup (hSeat c p hc)
        (hSeat d p hd) rfl)
    · intro p hp
      cases hp
    · intro p hp
      cases hp
    · intro p hp
      cases hp
  leaver := fun l hl => by simp [opening, Pending.leaver?] at hl

/- What is erased with the seat is all of his. -/
theorem Config.Safe.of_vacate
    {s : GameSession}
    {leaver : Leaver}
    (hSafe : Config.Safe ⟨s, .resume (.finishRemoval leaver)⟩)
    (hSeated : Config.Seated
      ⟨s, .resume (.finishRemoval leaver)⟩) :
    (s.vacate leaver).Owned :=
  hSafe.owned.vacate hSeated.nodup
    (hSeated.leaver leaver rfl).1 (hSafe.leaver leaver rfl)

/- One case for each step. -/
theorem Config.Safe.step
    {c d : Config}
    {e : Event}
    (hSafe : c.Safe)
    (hSeated : c.Seated)
    (hStep : Step c e d) :
    d.Safe := by
  have hOwned := hSafe.owned
  have hLeaver := hSafe.leaver
  cases hStep with
  | started hDealt hPosted hQuiet =>
      have hBlinds := (hDealt.owned hOwned).1.postBlinds hPosted
      have hOpened := hBlinds.forgetActed
      exact ⟨hQuiet.owned (hOpened.of_same rfl),
        by simp [Pending.leaver?]⟩
  | asked hAt hAct =>
      exact ⟨hOwned.of_same rfl, by simp [Pending.leaver?]⟩
  | passedOver hAt hAct hCloses =>
      exact ⟨hOwned.of_same rfl,
        by simp [closes_leaver? hCloses]⟩
  | wonByFold hOne =>
      exact ⟨hOwned, by simp [Pending.leaver?]⟩
  | street hMany hPhase hDeal hQuiet =>
      have hOpened := hOwned.clearBets.forgetActed
      exact ⟨hQuiet.owned (hOpened.of_same rfl),
        by simp [Pending.leaver?]⟩
  | riverClosed hMany hPhase =>
      exact ⟨hOwned.clearBets, by simp [Pending.leaver?]⟩
  | pastShowdown hMany hPhase =>
      exact ⟨hOwned.clearBets, by simp [Pending.leaver?]⟩
  | shownDown hQuiet hPending =>
      refine ⟨hQuiet.owned (hOwned.of_same rfl), ?_⟩
      rcases hPending with ⟨_, rfl⟩ | ⟨_, rfl⟩ | ⟨_, rfl⟩
      · simp [Pending.leaver?]
      · simp [Pending.leaver?]
      · simp [Pending.leaver?]
  | singleWinner =>
      exact ⟨hOwned, by simp [Pending.leaver?]⟩
  | @awardedNothing s next shuffle hEmpty =>
      refine ⟨hOwned, ?_⟩
      cases next with
      | tryStartNewHand => simp [Pending.leaver?]
      | finishRemoval l => exact hLeaver
  | @awarded s t award next shuffle hFull hPaid hQuiet =>
      have hAwarded := GameSession.Owned.payPots hOwned hPaid
      have hSettled :
          { award.session with
            pot := 0
            totalContributed := .empty : GameSession }.Owned :=
        ⟨hAwarded.connections, hAwarded.injective,
          hAwarded.hands, hAwarded.chips, hAwarded.roundBets,
          keysWithin_empty _, hAwarded.foldedPlayers,
          hAwarded.allInPlayers, hAwarded.playersActed⟩
      refine ⟨hQuiet.owned hSettled, ?_⟩
      rcases hQuiet with ⟨_, _, rfl, _⟩
      rcases GameSession.payPots_frame hPaid with
        ⟨chips, hEq⟩
      cases next with
      | tryStartNewHand => simp [Pending.leaver?]
      | finishRemoval l =>
          dsimp only
          rw [hEq]
          exact hLeaver
  | handOver hEnough hChips =>
      exact ⟨hOwned.of_same rfl, by simp [Pending.leaver?]⟩
  | gameOver hOver =>
      exact ⟨hOwned, by simp [Pending.leaver?]⟩
  | leftFew hFew hErased =>
      have hVacated := hSafe.of_vacate hSeated
      refine ⟨?_, by simp [Pending.leaver?]⟩
      rcases hErased with rfl | rfl
      · exact hVacated.of_same rfl
      · exact hVacated
  | leftOneActive hEnough hOne =>
      exact ⟨hSafe.of_vacate hSeated,
        by simp [Pending.leaver?]⟩
  | leftClosing hEnough hMany hCloses =>
      exact ⟨hSafe.of_vacate hSeated,
        by simp [closes_leaver? hCloses]⟩
  | leftWaiting hEnough hMany hOther hOpen hQuiet =>
      exact ⟨hQuiet.owned (hSafe.of_vacate hSeated),
        by simp [Pending.leaver?]⟩
  | unmapped hEnough hNone => exact hSafe
  | rejected hEnough hPlayer =>
      exact ⟨hOwned.of_same rfl, by simp [Pending.leaver?]⟩
  | wonByAction hEnough hPlayer hAt hActs hQuiet hOne =>
      have hMem := List.mem_of_getElem? hAt
      have hStill := hActs.frame.1.symm ▸ hMem
      have hPaid := hActs.owned hMem hOwned
      exact ⟨hQuiet.owned (hPaid.recordPlayerAction hStill _),
        by simp [Pending.leaver?]⟩
  | acted hEnough hPlayer hAt hActs hQuiet hMany hCloses =>
      have hMem := List.mem_of_getElem? hAt
      have hStill := hActs.frame.1.symm ▸ hMem
      have hPaid := hActs.owned hMem hOwned
      have hTold :=
        hQuiet.owned (hPaid.recordPlayerAction hStill _)
      exact ⟨hTold.of_same rfl,
        by simp [closes_leaver? hCloses]⟩
  | notSeated hEnough hNone => exact hSafe
  | leaving hEnough hPlayer hAt hCurrent hWas hPending =>
      refine ⟨hOwned.foldLeaver (List.mem_of_getElem? hAt), ?_⟩
      rcases hPending with ⟨_, rfl⟩ | ⟨_, rfl⟩
      · intro k hk
        cases hk
        exact hPlayer
      · intro k hk
        cases hk
        exact hPlayer

------------------------------------------------------------
-- Runs
------------------------------------------------------------

/- At every point of every call no pointer dangles. -/
theorem Table.Run.safe
    {table : Table}
    {trace : List (Config × Event)}
    {c : Config}
    (run : table.Run trace c) :
    c.Safe := by
  have hStep : ∀ b e d, (b.Seated ∧ b.Safe) →
      Config.step b e = .ok d → d.Seated ∧ d.Safe := by
    rintro b e d ⟨hSeated, hSafe⟩ hOk
    have hTaken := step_of_ok hOk
    exact ⟨hSeated.step hTaken, hSafe.step hSeated hTaken⟩
  have hBoth := Transition.Run.invariant_of_step hStep run
    ⟨table.opening_seated, table.opening_safe⟩
  exact hBoth.2

end Server

end Poker

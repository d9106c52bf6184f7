import AsciiPoker.Server.GameSession.Balances

/-
  The call that starts a session.

  When everybody can pay the big blind, the first to act has
  chips left after the blinds, so the call deals one hand,
  asks him and is over.  What the players have is stored then.

  Main declarations:
    * `GameSession.firstToActPreflop_ne_bbIndex`
    * `GameSession.Dealt.firstActs`
    * `GameSession.Opened`, `GameSession.opened_of_asked`
    * `GameSession.blindPosted_last`
-/

namespace Poker

namespace Server

open Protocol

namespace GameSession

variable {s t dealt posted : GameSession}
variable {p q : PlayerId}
variable {shuffle : Shuffle}
variable {shuffles : List Shuffle}

------------------------------------------------------------
-- The First to Act
------------------------------------------------------------

/- The big blind is not the first to act. -/
theorem firstToActPreflop_ne_bbIndex
    (hTwo : 2 ≤ s.players.length)
    (hDealer : s.dealerIndex < s.players.length) :
    s.firstToActPreflop ≠ s.bbIndex := by
  have hNext : ∀ i n : Nat, 2 ≤ n → i < n →
      (i + 1) % n ≠ i := by
    intro i n hn hi
    rcases Nat.lt_or_ge (i + 1) n with hLess | hLast
    · rw [Nat.mod_eq_of_lt hLess]
      omega
    · have hEq : i + 1 = n := by omega
      rw [hEq, Nat.mod_self]
      omega
  unfold firstToActPreflop bbIndex
  split
  · exact (hNext _ _ hTwo hDealer).symm
  · exact hNext _ _ hTwo (Nat.mod_lt _ (by omega))

/- Who is all in after a contribution. -/
theorem mem_allInPlayers_contribute
    (s : GameSession)
    (player : PlayerId)
    (amount : UInt32) :
    q ∈ (s.contribute player amount).allInPlayers ↔
      q ∈ s.allInPlayers ∨
        (q = player ∧
          (s.contribute player amount).chips.get player =
            0) := by
  unfold contribute markAllInIfNeeded
  split
  · rename_i hBroke
    dsimp only
    rw [Finset.mem_insert, hBroke]
    constructor
    · rintro (hHere | hBefore)
      · exact Or.inr ⟨hHere, rfl⟩
      · exact Or.inl hBefore
    · rintro (hBefore | ⟨hHere, _⟩)
      · exact Or.inr hBefore
      · exact Or.inl hHere
  · rename_i hChips
    constructor
    · exact Or.inl
    · rintro (hBefore | ⟨_, hBroke⟩)
      · exact hBefore
      · exact absurd hBroke hChips

/- Nobody is folded or all in when the cards are dealt. -/
theorem Dealt.renewed
    (hDealt : s.Dealt shuffle dealt) :
    dealt.players = s.players ∧
      dealt.dealerIndex = s.dealerIndex ∧
      dealt.foldedPlayers = ∅ ∧
      dealt.allInPlayers = ∅ := by
  rcases hDealt.spec with ⟨_, _, _, _, _, rfl, _⟩
  exact ⟨rfl, rfl, rfl, rfl⟩

/- Whoever acts first has chips left after the blinds. -/
theorem Dealt.firstActs
    (hDealt : s.Dealt shuffle dealt)
    (hPosted : dealt.postBlinds = .ok posted)
    (hNodup : s.players.Nodup)
    (hTwo : 2 ≤ s.players.length)
    (hDealer : s.dealerIndex < s.players.length)
    (hRich : ∀ p ∈ s.players, BIG_BLIND ≤ s.stackOf p)
    (hAt : s.players[s.firstToActPreflop]? = some p) :
    posted.canPlayerAct p := by
  rcases hDealt.renewed with
    ⟨hPlayers, hIndex, hFolded, hAllIn⟩
  have hMem := List.mem_of_getElem? hAt
  rcases hDealt.holding hMem with ⟨hChips, _⟩
  have hStack : dealt.chips.get p = s.stackOf p := by
    simp [KeyMap.get, hChips]
  rcases blinds_of_ok hPosted with ⟨sb, bb, _, hBb, rfl⟩
  have hBig : s.players[s.bbIndex]? = some bb := by
    unfold bbIndex at hBb ⊢
    rw [hPlayers, hIndex] at hBb
    exact hBb
  have hNe : p ≠ bb := by
    intro hEq
    rw [hEq, ← hBig] at hAt
    rw [List.getElem?_inj (by
      exact (List.getElem?_eq_some_iff.mp
        (hAt.trans hBig)).1) hNodup] at hAt
    exact firstToActPreflop_ne_bbIndex hTwo hDealer hAt
  refine ⟨?_, ?_⟩
  · dsimp only
    rw [(contribute_frame _ bb _).2.2.2.2.1,
      (contribute_frame _ sb _).2.2.2.2.1, hFolded]
    simp
  · dsimp only
    rw [mem_allInPlayers_contribute,
      mem_allInPlayers_contribute, hAllIn]
    rintro ((hNobody | ⟨rfl, hBroke⟩) | ⟨hEq, _⟩)
    · simp at hNobody
    · -- He is the small blind and has the big one.
      have hSmall : dealt.actualAmount p SMALL_BLIND ≤
          SMALL_BLIND := dealt.actualAmount_le_amount p _
      have hHas := hRich p hMem
      have hEnough := dealt.actualAmount_le_chips p SMALL_BLIND
      rw [contribute_chips, KeyMap.get_set, if_pos rfl,
        hStack] at hBroke
      rw [hStack] at hEnough
      have hZero := congrArg UInt32.toNat hBroke
      rw [UInt32.toNat_sub_of_le _ _ hEnough] at hZero
      rw [UInt32.le_iff_toNat_le] at hSmall hHas
      have hBlinds : SMALL_BLIND.toNat < BIG_BLIND.toNat := by
        decide
      have hNone : (0 : UInt32).toNat = 0 := rfl
      omega
    · exact hNe hEq

------------------------------------------------------------
-- The Call
------------------------------------------------------------

/- The stacks are stored, and nothing has left the hand. -/
structure Opened
    (s t : GameSession) : Prop where
  players : t.players = s.players
  names : t.names = s.names
  logs : s.Logs t t.stacksFor
  chips : ∀ p ∈ s.players, (t.chips.find p).isSome
  holding : ∀ p ∈ s.players, t.holding p = (s.stackOf p).toNat
  contributed : ∀ p ∈ s.players,
    t.totalContributed.get p = s.blindPosted p

/- The start of a session, up to its first question. -/
theorem opened_of_start
    {pending : Pending}
    (hRepository : s.hasRepository = true)
    (hOk : s.start shuffle = .ok (t, pending)) :
    s.Opened t ∧ pending = .askCurrentPlayer := by
  have hLogs := start_logs hRepository hOk
  have hStep := step_of_start hOk
  have hKeeps := hStep.keeps
  cases hStep with
  | @started s dealt posted t shuffle hDealt hPosted hQuiet =>
      rcases started_dealtIn hDealt hPosted with
        ⟨hPlayers, _, _, hSome⟩
      have hSame : t.players = posted.players ∧
          t.chips = posted.chips ∧
          t.holding = posted.holding ∧
          t.totalContributed = posted.totalContributed := by
        rcases hQuiet with ⟨_, _, rfl, _⟩
        exact ⟨rfl, rfl, rfl, rfl⟩
      rcases hSame with ⟨hSeats, hStacks, hHeld, hTotal⟩
      refine ⟨⟨hSeats.trans hPlayers, hKeeps.names, hLogs,
        ?_, ?_, ?_⟩, rfl⟩
      · rw [hStacks]
        exact hSome
      · rw [hHeld]
        exact fun p hp => hDealt.posted_holding hPosted hp
      · rw [hTotal]
        exact fun p hp => hDealt.blindPosted hPosted hp

/- A question changes nothing that is stored. -/
theorem Opened.send
    (hOpened : s.Opened t)
    (player : PlayerId)
    (msg : ServerMessage) :
    s.Opened (t.send player msg) := by
  refine ⟨hOpened.players, hOpened.names, ?_, hOpened.chips,
    hOpened.holding, hOpened.contributed⟩
  have hAll := hOpened.logs.trans (t.send_logs player msg)
  simp only [List.append_nil] at hAll
  exact hAll

/- In the seat that acts first is somebody who can. -/
theorem canAct_of_start
    {pending : Pending}
    (hNodup : s.players.Nodup)
    (hTwo : 2 ≤ s.players.length)
    (hDealer : s.dealerIndex < s.players.length)
    (hRich : ∀ p ∈ s.players, BIG_BLIND ≤ s.stackOf p)
    (hOk : s.start shuffle = .ok (t, pending))
    (hAt : t.players[t.currentPlayerIndex]? = some p) :
    t.canPlayerAct p := by
  have hStep := step_of_start hOk
  cases hStep with
  | @started s dealt posted t shuffle hDealt hPosted hQuiet =>
      rcases started_dealtIn hDealt hPosted with
        ⟨hPlayers, _, _, _⟩
      have hIndex : posted.dealerIndex = s.dealerIndex := by
        rcases blinds_of_ok hPosted with ⟨sb, bb, _, _, rfl⟩
        dsimp only
        rw [(contribute_frame _ bb _).2.2.2.2.2.2.2.1,
          (contribute_frame _ sb _).2.2.2.2.2.2.2.1]
        exact hDealt.renewed.2.1
      have hFirst : posted.firstToActPreflop =
          s.firstToActPreflop := by
        unfold firstToActPreflop bbIndex
        rw [hPlayers, hIndex]
      have hSame : t.players[t.currentPlayerIndex]? =
            posted.players[posted.firstToActPreflop]? ∧
          (posted.canPlayerAct p → t.canPlayerAct p) := by
        rcases hQuiet with ⟨_, _, rfl, _⟩
        exact ⟨rfl, fun h => h⟩
      rw [hSame.1, hFirst, hPlayers] at hAt
      exact hSame.2 (hDealt.firstActs hPosted hNodup hTwo
        hDealer hRich hAt)

/-
  The start of a session of players with the big blind is
  over with its first question.
-/
theorem opened_of_asked
    {u : GameSession}
    {pending next : Pending}
    (hNodup : s.players.Nodup)
    (hTwo : 2 ≤ s.players.length)
    (hDealer : s.dealerIndex < s.players.length)
    (hRich : ∀ p ∈ s.players, BIG_BLIND ≤ s.stackOf p)
    (hRepository : s.hasRepository = true)
    (hStart : s.start shuffle = .ok (t, pending))
    (hAsk : t.askCurrentPlayer = .ok (u, next)) :
    s.Opened u ∧ next = .done := by
  rcases opened_of_start hRepository hStart with ⟨hOpened, _⟩
  have hStep : Step ⟨t, .askCurrentPlayer⟩ (.proceed shuffle)
      ⟨u, next⟩ := step_of_askCurrentPlayer hAsk
  cases hStep with
  | asked hAt hAct => exact ⟨hOpened.send _ _, rfl⟩
  | passedOver hAt hAct hCloses =>
      exact absurd (canAct_of_start hNodup hTwo hDealer hRich
        hStart hAt) hAct

------------------------------------------------------------
-- The Last Seat
------------------------------------------------------------

/- The last of the seats is its player's alone. -/
theorem getElem?_last_iff
    {others : List PlayerId}
    {i : Nat}
    (hNodup : (others ++ [p]).Nodup) :
    (others ++ [p])[i]? = some p ↔ i = others.length := by
  have hLast : (others ++ [p])[others.length]? = some p := by
    simp
  constructor
  · intro hAt
    have hLt := (List.getElem?_eq_some_iff.mp hAt).1
    exact (List.getElem?_inj hLt hNodup).mp
      (hAt.trans hLast.symm)
  · rintro rfl
    exact hLast

/-
  With the button in the first seat, the player in the last
  of two or three seats posts the big blind, and the player
  in the last of more seats posts nothing.
-/
theorem blindPosted_last
    {others : List PlayerId}
    (hNodup : s.players.Nodup)
    (hPlayers : s.players = others ++ [p])
    (hOthers : 1 ≤ others.length)
    (hDealer : s.dealerIndex = 0)
    (hRich : BIG_BLIND ≤ s.stackOf p) :
    s.blindPosted p =
      if others.length ≤ 2 then BIG_BLIND else 0 := by
  rw [hPlayers] at hNodup
  have hLength : s.players.length = others.length + 1 := by
    rw [hPlayers, List.length_append, List.length_singleton]
  have hFew : min BIG_BLIND (s.stackOf p - 0) = BIG_BLIND := by
    apply UInt32.toNat_inj.mp
    rw [UInt32.toNat_min, UInt32.sub_zero]
    exact Nat.min_eq_left (UInt32.le_iff_toNat_le.mp hRich)
  have hSmall : s.sbIndex ≠ others.length := by
    unfold sbIndex
    rw [hLength, hDealer]
    split
    · omega
    · rw [Nat.mod_eq_of_lt (by omega)]
      omega
  have hBig : s.bbIndex = others.length ↔
      others.length ≤ 2 := by
    unfold bbIndex
    rw [hLength, hDealer]
    split
    · rw [Nat.mod_eq_of_lt (by omega)]
      omega
    · rw [Nat.mod_eq_of_lt (by omega)]
      omega
  unfold blindPosted
  simp only [hPlayers, getElem?_last_iff hNodup, hSmall, hBig,
    if_false, hFew]
  split
  · rfl
  · rfl

end GameSession

end Server

end Poker

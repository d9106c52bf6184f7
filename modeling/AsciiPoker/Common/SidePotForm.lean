import AsciiPoker.Common.SidePotLayers

/-
  The side pots in closed form.

  The levels are the positive contributions of the players
  still in the hand.  There is one pot for each level, which
  holds what all players put in between the level before
  and this one, and those who reached this level can win it.

  Main declarations:
    * `SidePots.stakes`, `SidePots.loop_layers`
    * `contributions`, `contributionsInPlay`
    * `computeSidePots_layers`, `computeSidePots_total_iff`
-/

namespace Poker

namespace SidePots

variable {remaining : List UInt32}
variable {eligible : List Nat}
variable {rounds : Nat}

/- What is left of the eligible players' contributions. -/
def stakes
    (remaining : List UInt32)
    (eligible : List Nat) : List Nat :=
  eligible.map fun index => (entry remaining index).toNat

/- Who keeps something above a layer. -/
def stayers
    (remaining : List UInt32)
    (eligible : List Nat) : List Nat :=
  eligible.filter fun index =>
    entry (takeLayer remaining (minBet remaining eligible))
      index ≠ 0

theorem entry_le_sum
    (remaining : List UInt32)
    (index : Nat) :
    (entry remaining index).toNat ≤ (piles remaining).sum := by
  unfold entry
  rw [List.getD_eq_getElem?_getD]
  cases hAt : remaining[index]? with
  | none => exact Nat.zero_le _
  | some r =>
      apply List.single_le_sum (fun _ _ => Nat.zero_le _)
      exact List.mem_map_of_mem (List.mem_of_getElem? hAt)

------------------------------------------------------------
-- One Level
------------------------------------------------------------

/- No pot is made when nobody eligible has anything left. -/
theorem levels_of_untaken
    (hLt : (piles remaining).sum < uint32Max.toNat)
    (hWhy : eligible = [] ∨
      minBet remaining eligible = uint32Max) :
    Layers.levels (stakes remaining eligible) = [] := by
  apply Layers.levels_eq_nil
  intro pile hPile
  rcases List.mem_map.mp hPile with ⟨i, hi, rfl⟩
  rcases hWhy with hNone | hMax
  · rw [hNone] at hi
    cases hi
  · by_contra hPos
    have hLe := minBet_le hi (Nat.pos_of_ne_zero hPos)
    have hSum := entry_le_sum remaining i
    rw [hMax] at hLe
    omega

/- A layer that is taken ends at the lowest level. -/
theorem levels_of_taken
    (hTaken : minBet remaining eligible ≠ uint32Max) :
    Layers.levels (stakes remaining eligible) =
      (minBet remaining eligible).toNat ::
        (Layers.levels (Layers.above
          (minBet remaining eligible).toNat
          (stakes remaining eligible))).map
            (· + (minBet remaining eligible).toNat) := by
  apply Layers.levels_cut
  · rcases minBet_mem remaining eligible with
      hTop | ⟨i, hi, _, hEq⟩
    · exact absurd hTop hTaken
    · exact List.mem_map.mpr ⟨i, hi, congrArg _ hEq.symm⟩
  · exact minBet_pos hTaken
  · intro pile hPile hPos
    rcases List.mem_map.mp hPile with ⟨i, hi, rfl⟩
    exact minBet_le hi hPos

/- Those who stay have the levels above. -/
theorem levels_stayers
    (remaining : List UInt32)
    (eligible : List Nat) :
    Layers.levels (stakes
        (takeLayer remaining (minBet remaining eligible))
        (stayers remaining eligible)) =
      Layers.levels (Layers.above
        (minBet remaining eligible).toNat
        (stakes remaining eligible)) := by
  apply Layers.levels_congr
  intro pile hPos
  simp only [stakes, stayers, Layers.above, List.map_map,
    List.mem_map, List.mem_filter, decide_eq_true_eq,
    Function.comp_apply, entry_takeLayer]
  constructor
  · rintro ⟨i, ⟨hi, _⟩, rfl⟩
    exact ⟨i, hi, rfl⟩
  · rintro ⟨i, hi, rfl⟩
    refine ⟨i, ⟨hi, ?_⟩, rfl⟩
    intro hZero
    rw [← UInt32.toNat_eq_zero_iff, entry_takeLayer] at hZero
    omega

/- A level is one further up than for those who stay. -/
theorem level_succ_of_taken
    {k : Nat}
    (hTaken : minBet remaining eligible ≠ uint32Max)
    (hk : k ≤ (Layers.levels (stakes
      (takeLayer remaining (minBet remaining eligible))
      (stayers remaining eligible))).length) :
    Layers.level (stakes remaining eligible) (k + 1) =
      Layers.level (stakes
          (takeLayer remaining (minBet remaining eligible))
          (stayers remaining eligible)) k +
        (minBet remaining eligible).toNat := by
  rw [levels_stayers] at hk
  rw [Layers.level_cut (levels_of_taken hTaken) hk]
  unfold Layers.level
  rw [levels_stayers]

theorem pos_of_mem_stayers
    {index : Nat}
    (hMem : index ∈ stayers remaining eligible) :
    0 < (entry (takeLayer remaining
      (minBet remaining eligible)) index).toNat := by
  have hLeft := (List.mem_filter.mp hMem).2
  rw [decide_eq_true_iff, ne_eq,
    ← UInt32.toNat_eq_zero_iff] at hLeft
  omega

/- Whoever reaches a height above the layer stays. -/
theorem filter_stayers
    {height : Nat}
    (hPos : 0 < height) :
    (stayers remaining eligible).filter (fun i =>
        height ≤ (entry (takeLayer remaining
          (minBet remaining eligible)) i).toNat) =
      eligible.filter fun i =>
        height + (minBet remaining eligible).toNat ≤
          (entry remaining i).toNat := by
  unfold stayers
  rw [List.filter_filter]
  apply List.filter_congr
  intro i _
  have hLeft := entry_takeLayer remaining
    (minBet remaining eligible) i
  rw [← Bool.decide_and, decide_eq_decide, ne_eq,
    ← UInt32.toNat_eq_zero_iff, hLeft]
  omega

------------------------------------------------------------
-- All Levels
------------------------------------------------------------

/- Those for whom the pot of a level is. -/
def winners
    (remaining : List UInt32)
    (eligible : List Nat)
    (k : Nat) : List Nat :=
  if k = 0 then
    eligible
  else
    eligible.filter fun i =>
      Layers.level (stakes remaining eligible) (k + 1) ≤
        (entry remaining i).toNat

/- The pots of those who stay are the other pots. -/
theorem winners_stayers
    {k : Nat}
    (hTaken : minBet remaining eligible ≠ uint32Max)
    (hk : k < (Layers.levels (stakes
      (takeLayer remaining (minBet remaining eligible))
      (stayers remaining eligible))).length) :
    winners (takeLayer remaining (minBet remaining eligible))
        (stayers remaining eligible) k =
      winners remaining eligible (k + 1) := by
  have hLevel := level_succ_of_taken hTaken
    (Nat.succ_le_of_lt hk)
  have hPos := Layers.level_lt_level (Nat.zero_lt_succ k)
    (Nat.succ_le_of_lt hk)
  unfold winners
  rw [if_neg (Nat.succ_ne_zero k), hLevel,
    ← filter_stayers (Nat.zero_lt_of_lt hPos)]
  split
  · rename_i hZero
    subst hZero
    apply Eq.symm
    apply List.filter_eq_self.mpr
    intro i hi
    rw [decide_eq_true_iff]
    exact Layers.first_level_le
      (List.mem_map.mpr ⟨i, hi, rfl⟩) (pos_of_mem_stayers hi)
  · rfl

/-
  The loop makes one pot for each level, if it is given as
  many rounds as there are eligible players.
-/
theorem loop_layers
    (hRounds : eligible.length ≤ rounds)
    (hLt : (piles remaining).sum < uint32Max.toNat) :
    (loop rounds remaining eligible).length =
        (Layers.levels (stakes remaining eligible)).length ∧
      ∀ k pot,
        (loop rounds remaining eligible)[k]? = some pot →
        pot.amount.toNat =
            Layers.between
              (Layers.level (stakes remaining eligible) k)
              (Layers.level (stakes remaining eligible) (k + 1))
              (piles remaining) ∧
          pot.eligiblePlayerIndices =
            winners remaining eligible k := by
  induction rounds generalizing remaining eligible with
  | zero =>
      have hNil : eligible = [] :=
        List.eq_nil_of_length_eq_zero (by omega)
      rw [levels_of_untaken hLt (.inl hNil)]
      refine ⟨rfl, ?_⟩
      intro k pot hPot
      cases hPot
  | succ rounds ih =>
      rcases loop_succ rounds remaining eligible with
        ⟨hLoop, hWhy⟩ | ⟨_, hTaken, hLoop⟩
      · rw [hLoop, levels_of_untaken hLt hWhy]
        refine ⟨rfl, ?_⟩
        intro k pot hPot
        cases hPot
      · have hLevels := levels_of_taken hTaken
        have hAbove := levels_stayers remaining eligible
        have hFewer := length_filter_takeLayer_lt hTaken
        have hSplit := Layers.below_add_sum_above
          (minBet remaining eligible).toNat (piles remaining)
        have hRest := @ih
          (takeLayer remaining (minBet remaining eligible))
          (stayers remaining eligible)
          (Nat.le_of_lt_succ (Nat.lt_of_lt_of_le hFewer hRounds))
          (by
            rw [piles_takeLayer]
            omega)
        rcases hRest with ⟨hLength, hPots⟩
        rw [hLoop]
        constructor
        · rw [hLevels, List.length_cons, List.length_cons,
            List.length_map, ← hAbove, ← hLength]
          rfl
        · intro k pot hPot
          cases k with
          | zero =>
              cases hPot
              have hFirst := level_succ_of_taken hTaken
                (Nat.zero_le _)
              have hGround : Layers.level
                  (stakes remaining eligible) 0 = 0 := rfl
              refine ⟨?_, rfl⟩
              rw [hFirst, hGround, Layers.between_zero,
                layerAmount_eq _ (Nat.lt_trans hLt (by decide))]
              exact congrArg (Layers.below · _)
                (Nat.zero_add _).symm
          | succ k =>
              rw [List.getElem?_cons_succ] at hPot
              have hk := Nat.lt_of_lt_of_eq
                (List.getElem?_eq_some_iff.mp hPot).1 hLength
              rcases hPots k pot hPot with ⟨hAmount, hWho⟩
              constructor
              · rw [hAmount, piles_takeLayer,
                  Layers.between_above,
                  level_succ_of_taken hTaken
                    (Nat.le_of_lt hk),
                  level_succ_of_taken hTaken
                    (Nat.succ_le_of_lt hk)]
              · rw [hWho, winners_stayers hTaken hk]

/- More rounds than eligible players change nothing. -/
theorem loop_rounds
    {more : Nat}
    (hRounds : eligible.length ≤ rounds)
    (hMore : rounds ≤ more) :
    loop more remaining eligible =
      loop rounds remaining eligible := by
  induction rounds generalizing remaining eligible more with
  | zero =>
      have hNil : eligible = [] :=
        List.eq_nil_of_length_eq_zero (by omega)
      cases more with
      | zero => rfl
      | succ more => simp [loop, hNil]
  | succ rounds ih =>
      cases more with
      | zero => omega
      | succ more =>
          by_cases hTaken :
              minBet remaining eligible = uint32Max
          · simp [loop, hTaken]
          · have hFewer := length_filter_takeLayer_lt hTaken
            have hRest := @ih
              (takeLayer remaining (minBet remaining eligible))
              (stayers remaining eligible) more
              (Nat.le_of_lt_succ
                (Nat.lt_of_lt_of_le hFewer hRounds))
              (by omega)
            unfold stayers at hRest
            simp only [loop]
            rw [hRest]

end SidePots

------------------------------------------------------------
-- The Players at a Table
------------------------------------------------------------

open SidePots

variable {players : List PotPlayerState}

/- What everybody put in, and those still in the hand. -/
def contributions
    (players : List PotPlayerState) : List Nat :=
  players.map fun q => q.contributed.toNat

def contributionsInPlay
    (players : List PotPlayerState) : List Nat :=
  contributions (players.filter fun q => !q.folded)

theorem piles_contributed
    (players : List PotPlayerState) :
    piles (players.map PotPlayerState.contributed) =
      contributions players := by
  simp [piles, contributions]

theorem entry_contributed
    (players : List PotPlayerState)
    (i : Nat) :
    entry (players.map PotPlayerState.contributed) i =
      (players.getD i {}).contributed := by
  unfold entry
  rw [List.getD_eq_getElem?_getD, List.getD_eq_getElem?_getD,
    List.getElem?_map]
  cases players[i]? with
  | none => rfl
  | some q => rfl

/- The stakes are the contributions in play. -/
theorem mem_stakes
    {pile : Nat} :
    pile ∈ stakes (players.map PotPlayerState.contributed)
        (unfolded players) ↔
      pile ∈ contributionsInPlay players := by
  simp only [stakes, contributionsInPlay, contributions,
    unfolded, entry_contributed, List.mem_map, List.mem_filter,
    List.mem_range]
  constructor
  · rintro ⟨i, ⟨hi, hIn⟩, rfl⟩
    refine ⟨players.getD i {}, ⟨?_, hIn⟩, rfl⟩
    rw [List.getD_eq_getElem?_getD,
      List.getElem?_eq_getElem hi]
    exact List.getElem_mem hi
  · rintro ⟨q, ⟨hq, hIn⟩, rfl⟩
    rcases List.getElem?_of_mem hq with ⟨i, hAt⟩
    have hi := (List.getElem?_eq_some_iff.mp hAt).1
    have hSame : players.getD i {} = q := by
      rw [List.getD_eq_getElem?_getD, hAt]
      rfl
    exact ⟨i, ⟨hi, by rw [hSame]; exact hIn⟩, by rw [hSame]⟩

theorem levels_stakes
    (players : List PotPlayerState) :
    Layers.levels
        (stakes (players.map PotPlayerState.contributed)
          (unfolded players)) =
      Layers.levels (contributionsInPlay players) :=
  Layers.levels_congr fun _ _ => mem_stakes

theorem level_stakes
    (players : List PotPlayerState) :
    Layers.level
        (stakes (players.map PotPlayerState.contributed)
          (unfolded players)) =
      Layers.level (contributionsInPlay players) := by
  unfold Layers.level
  rw [levels_stakes]

/- The winners of a level, in the order of the seats. -/
theorem winners_contributed
    (players : List PotPlayerState)
    (k : Nat) :
    winners (players.map PotPlayerState.contributed)
        (unfolded players) k =
      (List.range players.length).filter fun i =>
        !(players.getD i {}).folded ∧
          (k = 0 ∨
            Layers.level (contributionsInPlay players)
                (k + 1) ≤
              (players.getD i {}).contributed.toNat) := by
  unfold winners
  rw [level_stakes]
  by_cases hFirst : k = 0
  · rw [if_pos hFirst]
    unfold unfolded
    apply List.filter_congr
    intro i _
    simp [hFirst]
  · rw [if_neg hFirst]
    unfold unfolded
    rw [List.filter_filter]
    apply List.filter_congr
    intro i _
    rw [entry_contributed]
    simp [hFirst, Bool.and_comm]

/- Somebody in play reaches every level. -/
theorem exists_reaching
    {k : Nat}
    (hk : k < (Layers.levels
      (contributionsInPlay players)).length) :
    ∃ i ∈ unfolded players,
      (players.getD i {}).contributed.toNat =
        Layers.level (contributionsInPlay players) (k + 1) := by
  have hAt := List.getElem?_eq_getElem hk
  have hMem := (Layers.mem_levels.mp
    (List.mem_of_getElem? hAt)).2
  rw [← mem_stakes] at hMem
  rcases List.mem_map.mp hMem with ⟨i, hi, hEq⟩
  rw [entry_contributed] at hEq
  exact ⟨i, hi, hEq.trans (Layers.level_succ hAt).symm⟩

/- The last level is the highest contribution in play. -/
theorem isHeight_last_level
    (players : List PotPlayerState) :
    IsHeight (players.map PotPlayerState.contributed)
      (unfolded players)
      (Layers.level (contributionsInPlay players)
        (Layers.levels
          (contributionsInPlay players)).length) := by
  rw [← level_stakes, ← levels_stakes]
  constructor
  · intro i hi
    exact Layers.le_last_level
      (List.mem_map.mpr ⟨i, hi, rfl⟩)
  · rcases Layers.last_level_mem (stakes
        (players.map PotPlayerState.contributed)
        (unfolded players)) with hZero | hMem
    · exact Or.inl hZero
    · rcases List.mem_map.mp hMem with ⟨i, hi, hEq⟩
      exact Or.inr ⟨i, hi, hEq⟩

/- All pots hold what is below the last level. -/
theorem total_computeSidePots
    (hTotal : (contributions players).sum < 2 ^ 32 - 1) :
    ((computeSidePots players).map fun pot =>
        pot.amount.toNat).sum =
      Layers.below
        (Layers.level (contributionsInPlay players)
          (Layers.levels
            (contributionsInPlay players)).length)
        (contributions players) := by
  have hHeight := isHeight_last_level players
  have hTop : Layers.level (contributionsInPlay players)
      (Layers.levels
        (contributionsInPlay players)).length <
        uint32Max.toNat := by
    rcases hHeight.2 with hZero | ⟨i, _, hEq⟩
    · rw [hZero]
      decide
    · have hLe := entry_le_sum
        (players.map PotPlayerState.contributed) i
      rw [piles_contributed, hEq] at hLe
      exact Nat.lt_of_le_of_lt hLe hTotal
  have hSum := total_loop (Nat.le_refl _) hHeight hTop (by
    rw [piles_contributed]
    omega)
  rw [piles_contributed] at hSum
  exact hSum

/- The loop makes one pot for each level of what is in. -/
theorem computeSidePots_spec
    (hTotal : (contributions players).sum < 2 ^ 32 - 1) :
    (computeSidePots players).length =
        (Layers.levels
          (contributionsInPlay players)).length ∧
      ∀ k pot, (computeSidePots players)[k]? = some pot →
        pot.amount.toNat =
            Layers.between
              (Layers.level (contributionsInPlay players) k)
              (Layers.level (contributionsInPlay players)
                (k + 1))
              (contributions players) ∧
          pot.eligiblePlayerIndices =
            winners (players.map PotPlayerState.contributed)
              (unfolded players) k := by
  have hLt : (piles (players.map
      PotPlayerState.contributed)).sum < uint32Max.toNat := by
    rw [piles_contributed]
    exact hTotal
  have hLayers := loop_layers
    (Nat.le_refl (unfolded players).length) hLt
  rw [levels_stakes, level_stakes, piles_contributed]
    at hLayers
  exact hLayers

/- No pot is empty. -/
theorem computeSidePots_pos
    {k : Nat}
    {pot : SidePot}
    (hTotal : (contributions players).sum < 2 ^ 32 - 1)
    (hPot : (computeSidePots players)[k]? = some pot) :
    0 < pot.amount.toNat := by
  rcases computeSidePots_spec hTotal with ⟨hLength, hPots⟩
  have hk := Nat.lt_of_lt_of_eq
    (List.getElem?_eq_some_iff.mp hPot).1 hLength
  rcases exists_reaching hk with ⟨i, hi, hReach⟩
  have hSeat : i < players.length :=
    List.mem_range.mp (List.mem_of_mem_filter hi)
  rw [(hPots k pot hPot).1]
  apply Layers.between_pos _
    (Layers.level_lt_level (Nat.lt_succ_self k)
      (Nat.succ_le_of_lt hk)) (Nat.le_of_eq hReach.symm)
  rw [List.getD_eq_getElem?_getD,
    List.getElem?_eq_getElem hSeat]
  exact List.mem_map_of_mem (List.getElem_mem hSeat)

/-
  There is one pot for each level.  Pot `k` holds what the
  players put in between the levels `k` and `k + 1`, which
  is not nothing; it is for those who are in play and, but
  for the first pot, have reached level `k + 1`, of whom
  there is at least one.  All pots hold what is below the
  last level, and more rounds of the loop make no more pots.
-/
theorem computeSidePots_layers
    (players : List PotPlayerState)
    (hTotal : (contributions players).sum < 2 ^ 32 - 1) :
    let level := Layers.level (contributionsInPlay players)
    let count :=
      (Layers.levels (contributionsInPlay players)).length
    (computeSidePots players).length = count ∧
      (∀ k pot, (computeSidePots players)[k]? = some pot →
        pot.amount.toNat =
            (players.map fun q =>
              min q.contributed.toNat (level (k + 1)) -
                min q.contributed.toNat (level k)).sum ∧
          pot.eligiblePlayerIndices =
            ((List.range players.length).filter fun i =>
              !(players.getD i {}).folded ∧
                (k = 0 ∨ level (k + 1) ≤
                  (players.getD i {}).contributed.toNat)) ∧
          0 < pot.amount.toNat ∧
          pot.eligiblePlayerIndices ≠ []) ∧
      ((computeSidePots players).map fun pot =>
          pot.amount.toNat).sum =
        (players.map fun q =>
          min q.contributed.toNat (level count)).sum ∧
      ∀ rounds, (unfolded players).length ≤ rounds →
        SidePots.loop rounds
            (players.map PotPlayerState.contributed)
            (unfolded players) =
          computeSidePots players := by
  rcases computeSidePots_spec hTotal with ⟨hLength, hPots⟩
  refine ⟨hLength, ?_, ?_, ?_⟩
  · intro k pot hPot
    rcases hPots k pot hPot with ⟨hAmount, hWinners⟩
    have hk := Nat.lt_of_lt_of_eq
      (List.getElem?_eq_some_iff.mp hPot).1 hLength
    rcases exists_reaching hk with ⟨i, hi, hReach⟩
    have hSeat : i < players.length :=
      List.mem_range.mp (List.mem_of_mem_filter hi)
    refine ⟨?_, ?_, ?_, ?_⟩
    · rw [hAmount]
      unfold Layers.between contributions
      rw [List.map_map]
      rfl
    · rw [hWinners, winners_contributed]
    · exact computeSidePots_pos hTotal hPot
    · rw [hWinners, winners_contributed]
      apply List.ne_nil_of_mem (a := i)
      have hIn := (List.mem_filter.mp hi).2
      simp only [List.mem_filter, List.mem_range, hSeat,
        hIn, hReach]
      simp
  · rw [total_computeSidePots hTotal]
    unfold Layers.below contributions
    rw [List.map_map]
    rfl
  · intro rounds hRounds
    exact loop_rounds (Nat.le_refl _) hRounds

/- Two callers and a short stack, and one who folded. -/
theorem computeSidePots_layers_four :
    let players : List PotPlayerState :=
      [⟨50, false⟩, ⟨150, false⟩, ⟨80, true⟩, ⟨150, false⟩]
    let level := Layers.level (contributionsInPlay players)
    let count :=
      (Layers.levels (contributionsInPlay players)).length
    (computeSidePots players).length = count ∧
      ((computeSidePots players).map fun pot =>
          pot.amount.toNat).sum =
        (players.map fun q =>
          min q.contributed.toNat (level count)).sum := by
  have hLayers := computeSidePots_layers
    [⟨50, false⟩, ⟨150, false⟩, ⟨80, true⟩, ⟨150, false⟩]
    (by decide)
  exact ⟨hLayers.1, hLayers.2.2.1⟩

------------------------------------------------------------
-- What Is in No Pot
------------------------------------------------------------

/-
  All that was put in is in the pots if and only if nobody
  who folded put in more than everybody in play.
-/
theorem computeSidePots_total_iff
    (players : List PotPlayerState)
    (hPlay : ∃ q ∈ players, q.folded = false)
    (hTotal : (contributions players).sum < 2 ^ 32 - 1) :
    ((computeSidePots players).map fun pot =>
        pot.amount.toNat).sum =
        (contributions players).sum ↔
      ∀ p ∈ players, p.folded = true →
        ∃ q ∈ players, q.folded = false ∧
          p.contributed ≤ q.contributed := by
  rw [total_computeSidePots hTotal, Layers.below_eq_sum_iff]
  constructor
  · intro hBelow p hp _
    have hLe := hBelow _ (List.mem_map_of_mem hp)
    rcases Layers.last_level_mem
        (contributionsInPlay players) with hZero | hMem
    · rw [hZero] at hLe
      rcases hPlay with ⟨q, hq, hIn⟩
      refine ⟨q, hq, hIn, ?_⟩
      rw [UInt32.le_iff_toNat_le]
      omega
    · rcases List.mem_map.mp hMem with ⟨q, hq, hEq⟩
      rcases List.mem_filter.mp hq with ⟨hq, hIn⟩
      rw [← hEq] at hLe
      exact ⟨q, hq, by simpa using hIn,
        UInt32.le_iff_toNat_le.mpr hLe⟩
  · intro hCovered pile hPile
    rcases List.mem_map.mp hPile with ⟨p, hp, rfl⟩
    have hReached : ∀ q ∈ players, q.folded = false →
        q.contributed.toNat ≤
          Layers.level (contributionsInPlay players)
            (Layers.levels
              (contributionsInPlay players)).length := by
      intro q hq hIn
      apply Layers.le_last_level
      apply List.mem_map_of_mem
      exact List.mem_filter.mpr ⟨hq, by simp [hIn]⟩
    cases hFolded : p.folded with
    | false => exact hReached p hp hFolded
    | true =>
        rcases hCovered p hp hFolded with ⟨q, hq, hIn, hLe⟩
        exact Nat.le_trans (UInt32.le_iff_toNat_le.mp hLe)
          (hReached q hq hIn)

/- Everybody's chips are in the pots of three callers. -/
theorem computeSidePots_total_callers :
    ((computeSidePots
      [⟨50, true⟩, ⟨100, false⟩, ⟨100, false⟩]).map fun pot =>
        pot.amount.toNat).sum =
      (contributions
        [⟨50, true⟩, ⟨100, false⟩, ⟨100, false⟩]).sum :=
  (computeSidePots_total_iff
    [⟨50, true⟩, ⟨100, false⟩, ⟨100, false⟩]
    (by decide) (by decide)).mpr (by decide)

/- A player who folded had put in 50 more than the other. -/
theorem computeSidePots_excess :
    ¬ ∀ players : List PotPlayerState,
      (∃ q ∈ players, q.folded = false) →
      (contributions players).sum < 2 ^ 32 - 1 →
      ((computeSidePots players).map fun pot =>
          pot.amount.toNat).sum =
        (contributions players).sum := by
  intro hAll
  have hSum := hAll [⟨100, true⟩, ⟨50, false⟩]
    (by decide) (by decide)
  exact absurd hSum (by decide)

end Poker

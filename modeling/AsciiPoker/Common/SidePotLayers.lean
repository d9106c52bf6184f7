import AsciiPoker.Common.SidePots
import AsciiPoker.Library.Layers
import AsciiPoker.Library.Word32

/-
  What the side pots hold.

  The pots cut the contributions into layers.  Together they
  hold what lies below the highest contribution of a player
  still in the hand; those that one player can win hold at
  most what lies below his own.

  Main declarations:
    * `SidePots.IsHeight`, `SidePots.total_loop`
    * `SidePots.winnable`, `SidePots.winnable_loop_le`
-/

------------------------------------------------------------
-- One Layer
------------------------------------------------------------

namespace Poker

namespace SidePots

/- The contributions as numbers. -/
def piles
    (remaining : List UInt32) : List Nat :=
  remaining.map UInt32.toNat

theorem layerAmount_eq_foldl
    (remaining : List UInt32)
    (bet : UInt32) :
    layerAmount remaining bet =
      remaining.foldl (fun amount r => amount + min r bet)
        0 := by
  unfold layerAmount
  congr 1
  funext amount r
  by_cases hZero : r = 0
  · subst hZero
    have hMin : min 0 bet = 0 := by
      apply UInt32.toNat_inj.mp
      rw [UInt32.toNat_min]
      exact Nat.zero_min _
    simp [hMin]
  · simp [hZero]

theorem sum_min_toNat
    (remaining : List UInt32)
    (bet : UInt32) :
    (remaining.map fun r => (min r bet).toNat).sum =
      Layers.below bet.toNat (piles remaining) := by
  induction remaining with
  | nil => rfl
  | cons r remaining ih =>
      simp only [List.map_cons, List.sum_cons, piles,
        Layers.below_cons, UInt32.toNat_min] at ih ⊢
      omega

/- A layer is at most what lies below its height. -/
theorem layerAmount_le
    (remaining : List UInt32)
    (bet : UInt32) :
    (layerAmount remaining bet).toNat ≤
      Layers.below bet.toNat (piles remaining) := by
  have hLe := UInt32.toNat_foldl_add_le
    (fun r => min r bet) remaining 0
  rw [layerAmount_eq_foldl, ← sum_min_toNat]
  simpa using hLe

/- A layer that fits a word is what lies below its height. -/
theorem layerAmount_eq
    {remaining : List UInt32}
    (bet : UInt32)
    (hLt : (piles remaining).sum < 2 ^ 32) :
    (layerAmount remaining bet).toNat =
      Layers.below bet.toNat (piles remaining) := by
  have hBelow :=
    Layers.below_le_sum bet.toNat (piles remaining)
  rw [← sum_min_toNat] at hBelow ⊢
  rw [layerAmount_eq_foldl]
  have hSum := UInt32.toNat_foldl_add
    (fun r => min r bet) remaining 0
    (by simpa using (by omega))
  simpa using hSum

theorem toNat_takeOne
    (r bet : UInt32) :
    (if r = 0 then r else r - min r bet).toNat =
      r.toNat - bet.toNat := by
  by_cases hZero : r = 0
  · simp [hZero]
  · have hLe : min r bet ≤ r := by
      rw [UInt32.le_iff_toNat_le, UInt32.toNat_min]
      exact Nat.min_le_left _ _
    rw [if_neg hZero, UInt32.toNat_sub_of_le _ _ hLe,
      UInt32.toNat_min]
    omega

/- Taking a layer leaves what lies above its height. -/
theorem piles_takeLayer
    (remaining : List UInt32)
    (bet : UInt32) :
    piles (takeLayer remaining bet) =
      Layers.above bet.toNat (piles remaining) := by
  simp only [piles, takeLayer, Layers.above, List.map_map]
  apply List.map_congr_left
  intro r _
  exact toNat_takeOne r bet

theorem entry_takeLayer
    (remaining : List UInt32)
    (bet : UInt32)
    (index : Nat) :
    (entry (takeLayer remaining bet) index).toNat =
      (entry remaining index).toNat - bet.toNat := by
  unfold entry takeLayer
  rw [List.getD_eq_getElem?_getD, List.getElem?_map,
    List.getD_eq_getElem?_getD]
  cases hAt : remaining[index]? with
  | none => simp
  | some r => exact toNat_takeOne r bet

------------------------------------------------------------
-- The Height of a Layer
------------------------------------------------------------

/- The running minimum of `minBet` never rises. -/
theorem foldl_least_le_start
    (remaining : List UInt32)
    (eligible : List Nat)
    (start : UInt32) :
    (eligible.foldl
      (fun least index =>
        if 0 < entry remaining index then
          min least (entry remaining index)
        else
          least)
      start).toNat ≤ start.toNat := by
  induction eligible generalizing start with
  | nil => exact Nat.le_refl _
  | cons i rest ih =>
      rw [List.foldl_cons]
      by_cases hPos : 0 < entry remaining i
      · rw [if_pos hPos]
        have hRest := ih (min start (entry remaining i))
        rw [UInt32.toNat_min] at hRest
        omega
      · rw [if_neg hPos]
        exact ih start

/- `minBet` is below every positive eligible remainder. -/
theorem minBet_le
    {remaining : List UInt32}
    {eligible : List Nat}
    {index : Nat}
    (hMem : index ∈ eligible)
    (hPos : 0 < (entry remaining index).toNat) :
    (minBet remaining eligible).toNat ≤
      (entry remaining index).toNat := by
  unfold minBet
  generalize uint32Max = start
  induction eligible generalizing start with
  | nil => simp at hMem
  | cons i rest ih =>
      rw [List.foldl_cons]
      rcases List.mem_cons.mp hMem with rfl | hRest
      · rw [if_pos ((UInt32.pos_iff_toNat_pos _).mpr hPos)]
        have hLe := foldl_least_le_start remaining rest
          (min start (entry remaining index))
        rw [UInt32.toNat_min] at hLe
        omega
      · exact ih hRest _

/- `minBet` is a positive eligible remainder, or the top. -/
theorem minBet_mem
    (remaining : List UInt32)
    (eligible : List Nat) :
    minBet remaining eligible = uint32Max ∨
      ∃ index ∈ eligible,
        0 < (entry remaining index).toNat ∧
        minBet remaining eligible =
          entry remaining index := by
  unfold minBet
  generalize uint32Max = start
  induction eligible generalizing start with
  | nil => exact Or.inl rfl
  | cons i rest ih =>
      rw [List.foldl_cons]
      by_cases hPos : 0 < entry remaining i
      · rw [if_pos hPos]
        rcases ih (min start (entry remaining i)) with
          hStart | ⟨j, hj, hRest⟩
        · have hMin : min start (entry remaining i) =
              start ∨
                min start (entry remaining i) =
                  entry remaining i :=
            ite_eq_or_eq _ _ _
          rcases hMin with hMin | hMin
          · exact Or.inl (hStart.trans hMin)
          · refine Or.inr ⟨i, List.mem_cons_self .., ?_,
              hStart.trans hMin⟩
            exact (UInt32.pos_iff_toNat_pos _).mp hPos
        · exact Or.inr ⟨j, List.mem_cons_of_mem _ hj, hRest⟩
      · rw [if_neg hPos]
        rcases ih start with hStart | ⟨j, hj, hRest⟩
        · exact Or.inl hStart
        · exact Or.inr ⟨j, List.mem_cons_of_mem _ hj, hRest⟩

/- The bet of a layer that is taken is positive. -/
theorem minBet_pos
    {remaining : List UInt32}
    {eligible : List Nat}
    (hTaken : minBet remaining eligible ≠ uint32Max) :
    0 < (minBet remaining eligible).toNat := by
  rcases minBet_mem remaining eligible with
    hTop | ⟨i, _, hPos, hEq⟩
  · exact absurd hTop hTaken
  · rw [hEq]
    exact hPos

------------------------------------------------------------
-- One Round of the Loop
------------------------------------------------------------

/-
  The loop either makes no pot, or makes one for everybody
  eligible and goes on with whoever has chips left in.
-/
theorem loop_succ
    (rounds : Nat)
    (remaining : List UInt32)
    (eligible : List Nat) :
    (loop (rounds + 1) remaining eligible = [] ∧
        (eligible = [] ∨
          minBet remaining eligible = uint32Max)) ∨
      (eligible ≠ [] ∧
        minBet remaining eligible ≠ uint32Max ∧
        loop (rounds + 1) remaining eligible =
          { amount := layerAmount remaining
              (minBet remaining eligible)
            eligiblePlayerIndices := eligible } ::
          loop rounds
            (takeLayer remaining (minBet remaining eligible))
            (eligible.filter fun index =>
              entry
                (takeLayer remaining
                  (minBet remaining eligible))
                index ≠ 0)) := by
  by_cases hNone : eligible = []
  · left
    simp [loop, hNone]
  · by_cases hTop : minBet remaining eligible = uint32Max
    · left
      simp [loop, hTop]
    · right
      simp [loop, hNone, hTop]

/- Whoever is eligible for a pot was so from the start. -/
theorem eligible_loop_sublist
    {rounds : Nat}
    {remaining : List UInt32}
    {eligible : List Nat}
    {pot : SidePot}
    (hPot : pot ∈ loop rounds remaining eligible) :
    pot.eligiblePlayerIndices.Sublist eligible ∧
      pot.eligiblePlayerIndices ≠ [] := by
  induction rounds generalizing remaining eligible with
  | zero => simp [loop] at hPot
  | succ rounds ih =>
      rcases loop_succ rounds remaining eligible with
        ⟨hNil, _⟩ | ⟨hSome, _, hEq⟩
      · simp [hNil] at hPot
      · rw [hEq, List.mem_cons] at hPot
        rcases hPot with rfl | hRest
        · exact ⟨List.Sublist.refl _, hSome⟩
        · rcases ih hRest with ⟨hSub, hNe⟩
          exact ⟨hSub.trans List.filter_sublist, hNe⟩

------------------------------------------------------------
-- What One Player Can Win
------------------------------------------------------------

/- The pots that the player at `index` can win, together. -/
def winnable
    (pots : List SidePot)
    (index : Nat) : Nat :=
  (pots.map fun pot =>
    if index ∈ pot.eligiblePlayerIndices then
      pot.amount.toNat
    else
      0).sum

@[simp] theorem winnable_nil
    (index : Nat) :
    winnable [] index = 0 := rfl

@[simp] theorem winnable_cons
    (pot : SidePot)
    (pots : List SidePot)
    (index : Nat) :
    winnable (pot :: pots) index =
      (if index ∈ pot.eligiblePlayerIndices then
        pot.amount.toNat
      else
        0) + winnable pots index := by
  simp [winnable]

/- Nobody wins a pot he is not eligible for. -/
theorem winnable_loop_eq_zero
    {rounds : Nat}
    {remaining : List UInt32}
    {eligible : List Nat}
    {index : Nat}
    (hOut : index ∉ eligible) :
    winnable (loop rounds remaining eligible) index = 0 := by
  apply List.sum_eq_zero
  intro amount hAmount
  rcases List.mem_map.mp hAmount with ⟨pot, hPot, rfl⟩
  have hSub := (eligible_loop_sublist hPot).1
  rw [if_neg (fun hMem => hOut (hSub.subset hMem))]

/-
  A player with chips in the hand can win at most what lies
  below them; one without can win at most the first layer.
-/
theorem winnable_loop_le
    (rounds : Nat)
    (remaining : List UInt32)
    (eligible : List Nat)
    (index : Nat) :
    winnable (loop rounds remaining eligible) index ≤
      Layers.below
        (if 0 < (entry remaining index).toNat then
          (entry remaining index).toNat
        else if
            minBet remaining eligible = uint32Max then
          0
        else
          (minBet remaining eligible).toNat)
        (piles remaining) := by
  induction rounds generalizing remaining eligible with
  | zero => simp [loop]
  | succ rounds ih =>
      by_cases hIn : index ∈ eligible
      case neg =>
        rw [winnable_loop_eq_zero hIn]
        exact Nat.zero_le _
      rcases loop_succ rounds remaining eligible with
        ⟨hNil, _⟩ | ⟨_, hTaken, hEq⟩
      · rw [hNil, winnable_nil]
        exact Nat.zero_le _
      rw [hEq, winnable_cons, if_pos hIn]
      generalize hBet : minBet remaining eligible = bet
      have hLayer := layerAmount_le remaining bet
      -- Whoever stays eligible has chips above the layer.
      by_cases hStays :
          entry (takeLayer remaining bet) index ≠ 0
      · have hRest := ih (takeLayer remaining bet)
          (eligible.filter fun index =>
            entry (takeLayer remaining bet) index ≠ 0)
        have hLeft := entry_takeLayer remaining bet index
        have hPos :
            0 < (entry (takeLayer remaining bet)
              index).toNat := by
          rw [← UInt32.pos_iff_toNat_pos]
          exact UInt32.pos_iff_ne_zero.mpr hStays
        rw [if_pos hPos, hLeft, piles_takeLayer] at hRest
        rw [if_pos (by omega)]
        have hSplit := Layers.below_add bet.toNat
          ((entry remaining index).toNat - bet.toNat)
          (piles remaining)
        have hHeight : bet.toNat +
            ((entry remaining index).toNat - bet.toNat) =
              (entry remaining index).toNat := by
          omega
        rw [hHeight] at hSplit
        rw [hSplit]
        exact Nat.add_le_add hLayer hRest
      · rw [winnable_loop_eq_zero
          (by simp only [List.mem_filter, not_and]
              intro _
              simpa using hStays), Nat.add_zero]
        apply Nat.le_trans hLayer
        apply Layers.below_mono
        by_cases hPos : 0 < (entry remaining index).toNat
        · rw [if_pos hPos, ← hBet]
          exact minBet_le hIn hPos
        · rw [if_neg hPos, if_neg (hBet ▸ hTaken)]

------------------------------------------------------------
-- What All Pots Hold
------------------------------------------------------------

/- The highest remainder of an eligible player. -/
def IsHeight
    (remaining : List UInt32)
    (eligible : List Nat)
    (height : Nat) : Prop :=
  (∀ i ∈ eligible, (entry remaining i).toNat ≤ height) ∧
    (height = 0 ∨
      ∃ i ∈ eligible, (entry remaining i).toNat = height)

/- There is a highest remainder. -/
theorem exists_isHeight
    (remaining : List UInt32)
    (eligible : List Nat) :
    ∃ height, IsHeight remaining eligible height := by
  induction eligible with
  | nil => exact ⟨0, by simp, Or.inl rfl⟩
  | cons i rest ih =>
      rcases ih with ⟨height, hBound, hReached⟩
      by_cases hLe : (entry remaining i).toNat ≤ height
      · refine ⟨height, ?_, ?_⟩
        · exact List.forall_mem_cons.mpr ⟨hLe, hBound⟩
        · rcases hReached with hZero | ⟨j, hj, hEq⟩
          · exact Or.inl hZero
          · exact Or.inr ⟨j, List.mem_cons_of_mem _ hj, hEq⟩
      · refine ⟨(entry remaining i).toNat, ?_, ?_⟩
        · refine List.forall_mem_cons.mpr
            ⟨Nat.le_refl _, ?_⟩
          intro j hj
          have := hBound j hj
          omega
        · exact Or.inr ⟨i, List.mem_cons_self .., rfl⟩

/- Taking a layer lowers the highest remainder by it. -/
theorem IsHeight.takeLayer
    {remaining : List UInt32}
    {eligible : List Nat}
    {height : Nat}
    (bet : UInt32)
    (hHeight : IsHeight remaining eligible height) :
    IsHeight (takeLayer remaining bet)
      (eligible.filter fun index =>
        entry (takeLayer remaining bet) index ≠ 0)
      (height - bet.toNat) := by
  rcases hHeight with ⟨hBound, hReached⟩
  refine ⟨?_, ?_⟩
  · intro i hi
    have := hBound i (List.mem_of_mem_filter hi)
    rw [entry_takeLayer]
    omega
  · by_cases hZero : height - bet.toNat = 0
    · exact Or.inl hZero
    · rcases hReached with hNone | ⟨i, hi, hEq⟩
      · omega
      · have hLeft := entry_takeLayer remaining bet i
        refine Or.inr ⟨i, ?_, by omega⟩
        rw [List.mem_filter, decide_eq_true_iff]
        refine ⟨hi, ?_⟩
        rw [ne_eq, ← UInt32.toNat_eq_zero_iff]
        omega

/- A taken layer uses up an eligible player. -/
theorem length_filter_takeLayer_lt
    {remaining : List UInt32}
    {eligible : List Nat}
    (hTaken : minBet remaining eligible ≠ uint32Max) :
    (eligible.filter fun index =>
      entry
        (takeLayer remaining (minBet remaining eligible))
        index ≠ 0).length < eligible.length := by
  rcases minBet_mem remaining eligible with
    hTop | ⟨i, hi, _, hEq⟩
  · exact absurd hTop hTaken
  · rw [List.length_filter_lt_length_iff_exists]
    refine ⟨i, hi, ?_⟩
    have hLeft := entry_takeLayer remaining
      (minBet remaining eligible) i
    rw [decide_eq_true_iff, not_not,
      ← UInt32.toNat_eq_zero_iff, hLeft, hEq]
    exact Nat.sub_self _

/-
  The pots hold together what lies below the highest
  remainder of an eligible player.
-/
theorem total_loop
    {rounds : Nat}
    {remaining : List UInt32}
    {eligible : List Nat}
    {height : Nat}
    (hRounds : eligible.length ≤ rounds)
    (hHeight : IsHeight remaining eligible height)
    (hTop : height < uint32Max.toNat)
    (hLt : (piles remaining).sum < 2 ^ 32) :
    ((loop rounds remaining eligible).map
      fun pot => pot.amount.toNat).sum =
        Layers.below height (piles remaining) := by
  induction rounds generalizing remaining eligible height with
  | zero =>
      have hNil : eligible = [] :=
        List.eq_nil_of_length_eq_zero (by omega)
      have hZero : height = 0 := by
        rcases hHeight.2 with hZero | ⟨i, hi, _⟩
        · exact hZero
        · simp [hNil] at hi
      simp [loop, hZero]
  | succ rounds ih =>
      rcases loop_succ rounds remaining eligible with
        ⟨hNil, hWhy⟩ | ⟨_, hTaken, hEq⟩
      · -- Without a pot nobody eligible has chips left in.
        have hZero : height = 0 := by
          rcases hHeight.2 with hZero | ⟨i, hi, hAt⟩
          · exact hZero
          · rcases hWhy with hNone | hMax
            · simp [hNone] at hi
            · by_contra hPos
              have hLe := @minBet_le remaining _ _
                hi (by omega)
              rw [hMax] at hLe
              omega
        simp [hNil, hZero]
      · rw [hEq, List.map_cons, List.sum_cons]
        have hFewer := length_filter_takeLayer_lt hTaken
        have hSplit := Layers.below_add_sum_above
          (minBet remaining eligible).toNat
          (piles remaining)
        have hRest := ih (by omega)
          (hHeight.takeLayer (minBet remaining eligible))
          (by omega)
          (by
            rw [piles_takeLayer]
            omega)
        rw [hRest, piles_takeLayer, layerAmount_eq _ hLt,
          ← Layers.below_add]
        congr 1
        rcases minBet_mem remaining eligible with
          hMax | ⟨i, hi, _, hAt⟩
        · exact absurd hMax hTaken
        · have := hHeight.1 i hi
          rw [hAt]
          omega

/- The pots never hold more than was put in. -/
theorem total_loop_le
    (rounds : Nat)
    (remaining : List UInt32)
    (eligible : List Nat) :
    ((loop rounds remaining eligible).map
      fun pot => pot.amount.toNat).sum ≤
        (piles remaining).sum := by
  induction rounds generalizing remaining eligible with
  | zero => simp [loop]
  | succ rounds ih =>
      rcases loop_succ rounds remaining eligible with
        ⟨hNil, _⟩ | ⟨_, _, hEq⟩
      · rw [hNil]
        exact Nat.zero_le _
      · rw [hEq, List.map_cons, List.sum_cons,
          ← Layers.below_add_sum_above
            (minBet remaining eligible).toNat
            (piles remaining),
          ← piles_takeLayer]
        exact Nat.add_le_add (layerAmount_le _ _) (ih _ _)

end SidePots

end Poker

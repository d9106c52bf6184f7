import Mathlib.Algebra.Order.BigOperators.Group.List
import Mathlib.Algebra.Order.Ring.Nat

/-
  Maps from keys to values, read the way an associative
  container is read: `find` says whether a key is present,
  `get` yields the default value of an absent key.

  Main declarations:
    * `KeyMap`, `KeyMap.set`, `KeyMap.erase`,
      `KeyMap.mapValues`
    * `KeyMap.get_set`, `KeyMap.get_erase`
    * `List.sum_map_exchange`
-/

------------------------------------------------------------
-- Maps
------------------------------------------------------------

/- A map; an absent key is sent to `none`. -/
@[ext] structure KeyMap (K V : Type) where
  find : K → Option V

namespace KeyMap

variable {K V : Type}

/- The map without keys. -/
def empty : KeyMap K V where
  find := fun _ => none

/- The value of a key, the default one when it is absent. -/
def get
    [Inhabited V]
    (m : KeyMap K V)
    (k : K) : V :=
  (m.find k).getD default

/- Bind a key to a value. -/
def set
    [DecidableEq K]
    (m : KeyMap K V)
    (k : K)
    (v : V) : KeyMap K V where
  find := fun j => if j = k then some v else m.find j

/- Remove a key. -/
def erase
    [DecidableEq K]
    (m : KeyMap K V)
    (k : K) : KeyMap K V where
  find := fun j => if j = k then none else m.find j

/- Rewrite every value that is present. -/
def mapValues
    (m : KeyMap K V)
    (f : V → V) : KeyMap K V where
  find := fun j => (m.find j).map f

@[simp] theorem find_empty
    (k : K) :
    (empty : KeyMap K V).find k = none := rfl

@[simp] theorem get_empty
    [Inhabited V]
    (k : K) :
    (empty : KeyMap K V).get k = default := rfl

theorem find_set
    [DecidableEq K]
    (m : KeyMap K V)
    (k j : K)
    (v : V) :
    (m.set k v).find j =
      if j = k then some v else m.find j := rfl

theorem get_set
    [DecidableEq K]
    [Inhabited V]
    (m : KeyMap K V)
    (k j : K)
    (v : V) :
    (m.set k v).get j = if j = k then v else m.get j := by
  by_cases h : j = k
  · simp [get, set, h]
  · simp [get, set, h]

@[simp] theorem get_set_self
    [DecidableEq K]
    [Inhabited V]
    (m : KeyMap K V)
    (k : K)
    (v : V) :
    (m.set k v).get k = v := by
  simp [get_set]

theorem get_set_of_ne
    [DecidableEq K]
    [Inhabited V]
    (m : KeyMap K V)
    {k j : K}
    (v : V)
    (hNe : j ≠ k) :
    (m.set k v).get j = m.get j := by
  simp [get_set, hNe]

theorem find_erase
    [DecidableEq K]
    (m : KeyMap K V)
    (k j : K) :
    (m.erase k).find j =
      if j = k then none else m.find j := rfl

theorem get_erase
    [DecidableEq K]
    [Inhabited V]
    (m : KeyMap K V)
    (k j : K) :
    (m.erase k).get j =
      if j = k then default else m.get j := by
  by_cases h : j = k
  · simp [get, erase, h]
  · simp [get, erase, h]

theorem get_erase_of_ne
    [DecidableEq K]
    [Inhabited V]
    (m : KeyMap K V)
    {k j : K}
    (hNe : j ≠ k) :
    (m.erase k).get j = m.get j := by
  simp [get_erase, hNe]

theorem find_mapValues
    (m : KeyMap K V)
    (f : V → V)
    (k : K) :
    (m.mapValues f).find k = (m.find k).map f := rfl

/- Rewriting every value by a constant default clears the map. -/
theorem get_mapValues_default
    [Inhabited V]
    (m : KeyMap K V)
    (k : K) :
    (m.mapValues (fun _ => default)).get k = default := by
  cases h : m.find k with
  | none =>
      simp [get, mapValues, h]
  | some v =>
      simp [get, mapValues, h]

/- What is bound in the end was bound before or by the list. -/
theorem mem_of_find_foldl_set
    [DecidableEq K]
    {entries : List (K × V)}
    {k : K}
    {v : V}
    {m : KeyMap K V}
    (hFind : (entries.foldl
      (fun m e => m.set e.1 e.2) m).find k = some v) :
    (k, v) ∈ entries ∨ m.find k = some v := by
  induction entries generalizing m with
  | nil => exact Or.inr hFind
  | cons e es ih =>
      rcases ih hFind with hMem | hSet
      · exact Or.inl (List.mem_cons_of_mem e hMem)
      · rw [find_set] at hSet
        split at hSet
        next hSame =>
          cases hSet
          exact Or.inl (hSame ▸ List.mem_cons_self ..)
        next => exact Or.inr hSet

/- A list of bindings of different keys binds each of them. -/
theorem find_foldl_set_of_mem
    [DecidableEq K]
    {entries : List (K × V)}
    {k : K}
    {v : V}
    (hNodup : (entries.map Prod.fst).Nodup)
    (hMem : (k, v) ∈ entries)
    (m : KeyMap K V) :
    (entries.foldl (fun m e => m.set e.1 e.2) m).find k =
      some v := by
  suffices hOther : ∀ (rest : List (K × V)) (m : KeyMap K V),
      k ∉ rest.map Prod.fst →
      (rest.foldl (fun m e => m.set e.1 e.2) m).find k =
        m.find k by
    induction entries generalizing m with
    | nil => cases hMem
    | cons e es ih =>
        rw [List.map_cons, List.nodup_cons] at hNodup
        rcases List.mem_cons.mp hMem with rfl | hTail
        · rw [List.foldl_cons, hOther es _ hNodup.1, find_set,
            if_pos rfl]
        · exact ih hNodup.2 hTail _
  intro rest
  induction rest with
  | nil => simp
  | cons e es ih =>
      intro m hNew
      rw [List.map_cons, List.mem_cons, not_or] at hNew
      rw [List.foldl_cons, ih _ hNew.2, find_set,
        if_neg hNew.1]

end KeyMap

------------------------------------------------------------
-- Sums Over Distinct Keys
------------------------------------------------------------

namespace List

variable {K : Type}

/-
  Two summands that agree off one key of a duplicate-free
  list differ in their sums by what they differ at the key.
-/
theorem sum_map_exchange
    {ks : List K}
    {k : K}
    {f g : K → Nat}
    (hNodup : ks.Nodup)
    (hMem : k ∈ ks)
    (hOff : ∀ j ∈ ks, j ≠ k → f j = g j) :
    (ks.map f).sum + g k = (ks.map g).sum + f k := by
  induction ks with
  | nil =>
      simp at hMem
  | cons j js ih =>
      have hNodupTail := (List.nodup_cons.mp hNodup).2
      have hHead := (List.nodup_cons.mp hNodup).1
      rcases List.mem_cons.mp hMem with hEq | hTail
      · subst hEq
        have hSame : js.map f = js.map g := by
          apply List.map_congr_left
          intro i hi
          exact hOff i (List.mem_cons_of_mem _ hi)
            (fun hEq => hHead (hEq ▸ hi))
        simp only [List.map_cons, List.sum_cons, hSame]
        omega
      · have hRec := ih hNodupTail hTail
          (fun i hi => hOff i (List.mem_cons_of_mem _ hi))
        have hNe : j ≠ k := fun hEq => hHead (hEq ▸ hTail)
        have hAt := hOff j (List.mem_cons_self ..) hNe
        simp only [List.map_cons, List.sum_cons, hAt]
        omega

/- Equal summands on the keys have equal sums. -/
theorem sum_map_congr
    {ks : List K}
    {f g : K → Nat}
    (hEq : ∀ k ∈ ks, f k = g k) :
    (ks.map f).sum = (ks.map g).sum := by
  rw [List.map_congr_left hEq]

/- One summand is at most the sum. -/
theorem le_sum_map
    {ks : List K}
    {k : K}
    (f : K → Nat)
    (hMem : k ∈ ks) :
    f k ≤ (ks.map f).sum :=
  List.single_le_sum (by simp) _
    (List.mem_map.mpr ⟨k, hMem, rfl⟩)

/- Two summands are at most the sum. -/
theorem add_le_sum_map
    {ks : List K}
    {k j : K}
    (f : K → Nat)
    [DecidableEq K]
    (hNodup : ks.Nodup)
    (hMem : k ∈ ks)
    (hOther : j ∈ ks)
    (hNe : j ≠ k) :
    f k + f j ≤ (ks.map f).sum := by
  have hSum := sum_map_exchange (f := f)
    (g := fun i => if i = k then 0 else f i) hNodup hMem
    (fun i _ hi => by simp [hi])
  have hRest := le_sum_map
    (fun i => if i = k then 0 else f i) hOther
  simp only [if_neg hNe] at hRest
  simp only [if_true, Nat.add_zero] at hSum
  omega

end List

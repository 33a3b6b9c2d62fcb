import Mathlib.Algebra.BigOperators.Intervals
import Mathlib.Algebra.Order.BigOperators.Group.Finset
import Mathlib.Algebra.Order.Group.Nat

/-!
# Filling consecutive blocks

Blocks of given capacities stand one behind the other, each filled from its own start. What
is filled is a prefix of the whole exactly if no block is begun behind one with room left.
-/

namespace Fill

variable {capacity filled : Nat → Nat} {i j k n : Nat}

/-- Where block `j` begins. -/
def base (capacity : Nat → Nat) (j : Nat) : Nat := ∑ i ∈ Finset.range j, capacity i

/-- No block is begun behind one that has room left. -/
def InOrder (capacity filled : Nat → Nat) : Prop := ∀ i j, i < j → filled i < capacity i → filled j = 0

@[simp] theorem base_zero (capacity : Nat → Nat) : base capacity 0 = 0 := rfl

@[simp] theorem base_succ (capacity : Nat → Nat) (j : Nat) : base capacity (j + 1) = base capacity j + capacity j :=
  Finset.sum_range_succ ..

theorem base_mono (capacity : Nat → Nat) (le : j ≤ k) : base capacity j ≤ base capacity k :=
  Finset.sum_le_sum_of_subset (Finset.range_subset_range.mpr le)

theorem base_lt (capacity : Nat → Nat) (before : i < j) : base capacity i + capacity i ≤ base capacity j := by
  rw [← base_succ]
  exact base_mono capacity before

theorem base_le (within : ∀ j, filled j ≤ capacity j) (j : Nat) : base filled j ≤ base capacity j :=
  Finset.sum_le_sum fun i _ => within i

theorem base_eq_of_empty (le : j ≤ k) (empty : ∀ i, j ≤ i → i < k → filled i = 0) : base filled k = base filled j := by
  induction k, le using Nat.le_induction with
  | base => rfl
  | succ k le ih =>
    rw [base_succ, ih fun i later bound => empty i later (bound.trans (Nat.lt_succ_self k)),
      empty k le (Nat.lt_succ_self k), Nat.add_zero]

theorem base_eq_of_full (full : ∀ i, i < j → filled i = capacity i) : base filled j = base capacity j :=
  Finset.sum_congr rfl fun i member => full i (Finset.mem_range.mp member)

/-- With the blocks filled in order, a place of block `j` is filled if it lies within the total. -/
theorem InOrder.filled_iff (order : InOrder capacity filled) (within : ∀ j, filled j ≤ capacity j) (bound : j < k)
    (place : Nat) : place < filled j ↔ place < capacity j ∧ base capacity j + place < base filled k := by
  by_cases room : ∃ i, i < j ∧ filled i < capacity i
  · obtain ⟨i, before, room⟩ := room
    have none : filled j = 0 := order i j before room
    have total : base filled k = base filled j :=
      base_eq_of_empty bound.le fun i' later _ => order i i' (before.trans_le later) room
    have le := base_le within j
    omega
  · have full : base filled j = base capacity j := base_eq_of_full fun i before =>
      (within i).eq_of_not_lt fun less => room ⟨i, before, less⟩
    have through : base filled j + filled j ≤ base filled k := base_lt filled bound
    have fits := within j
    refine ⟨fun less => by omega, fun ⟨inside, below⟩ => ?_⟩
    by_contra beyond
    have rest : base filled k = base filled (j + 1) :=
      base_eq_of_empty bound fun i later _ => order j i later (by omega)
    rw [base_succ] at rest
    omega

theorem inOrder_of_filled (ahead : ∀ j, k ≤ j → filled j = 0)
    (prefixed : ∀ j, j < k → ∀ place, place < filled j ↔ place < capacity j ∧ base capacity j + place < n) :
    InOrder capacity filled := by
  intro i j before room
  by_cases later : k ≤ j
  · exact ahead j later
  · by_contra begun
    have first := (prefixed j (Nat.not_le.mp later) 0).mp (Nat.pos_of_ne_zero begun)
    have gap := (prefixed i (before.trans (Nat.not_le.mp later)) (filled i)).mpr.mt (lt_irrefl _)
    have ends := base_lt capacity before
    omega

theorem total_le_of_filled (within : ∀ j, filled j ≤ capacity j)
    (prefixed : ∀ j, j < k → ∀ place, place < filled j ↔ place < capacity j ∧ base capacity j + place < n) :
    base filled k ≤ n := by
  induction k with
  | zero => exact Nat.zero_le n
  | succ k ih =>
    have before := ih fun j bound => prefixed j (bound.trans (Nat.lt_succ_self k))
    rw [base_succ]
    rcases Nat.eq_zero_or_pos (filled k) with none | some
    · omega
    · have last := (prefixed k (Nat.lt_succ_self k) (filled k - 1)).mp (by omega)
      have le := base_le within k
      omega

/-- The first `n` places are filled and no others, when at least `n` are filled, exactly if
the blocks are filled in order and these are all. -/
theorem filled_iff (within : ∀ j, filled j ≤ capacity j) (ahead : ∀ j, k ≤ j → filled j = 0)
    (enough : n ≤ base filled k) :
    (∀ j, j < k → ∀ place, place < filled j ↔ place < capacity j ∧ base capacity j + place < n) ↔
      InOrder capacity filled ∧ base filled k ≤ n := by
  constructor
  · intro prefixed
    exact ⟨inOrder_of_filled ahead prefixed, total_le_of_filled within prefixed⟩
  · rintro ⟨order, all⟩ j bound place
    rw [le_antisymm enough all]
    exact order.filled_iff within bound place

end Fill

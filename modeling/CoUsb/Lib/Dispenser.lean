import Mathlib.Algebra.BigOperators.Group.Finset.Basic
import Mathlib.Data.Multiset.Range

/-!
# Handing out numbered items

Items are taken in the order of their numbers, and a worker holds at most one at a time.
`Balanced` accounts for all of them: an item handed out was returned once, or it is held
by a worker that is at work.
-/

structure Dispenser (ι : Type*) where
  next : Nat
  held : ι → Option Nat

namespace Dispenser

variable {ι : Type*} [DecidableEq ι] {limit : Nat} {d d' : Dispenser ι}

inductive Step (limit : Nat) : Dispenser ι → Dispenser ι → Prop where
  | stay (d : Dispenser ι) : Step limit d d
  | take (d : Dispenser ι) (i : ι) (left : d.next < limit) :
      Step limit d ⟨d.next + 1, Function.update d.held i (some d.next)⟩

/-- No item beyond the limit is handed out, and no two workers hold the same one. -/
structure Valid (limit : Nat) (d : Dispenser ι) : Prop where
  next_le : d.next ≤ limit
  held_lt : ∀ i k, d.held i = some k → k < d.next
  exclusive : ∀ i j k, d.held i = some k → d.held j = some k → i = j

/-- The first `n` workers with one item each. -/
def start (n : Nat) : Dispenser Nat := ⟨n, fun i => if i < n then some i else none⟩

theorem start_valid {n : Nat} (le : n ≤ limit) : Valid limit (start n) := by
  have same : ∀ {i k}, (start n).held i = some k → i < n ∧ i = k := by
    intro i k h
    simpa [start] using h
  refine ⟨le, fun i k h => ?_, fun i j k h h' => (same h).2.trans (same h').2.symm⟩
  obtain ⟨bound, rfl⟩ := same h
  exact bound

theorem step_valid (valid : Valid limit d) (step : Step limit d d') : Valid limit d' := by
  obtain ⟨bound, below, exclusive⟩ := valid
  cases step with
  | stay => exact ⟨bound, below, exclusive⟩
  | take i left =>
    have split : ∀ {j k}, Function.update d.held i (some d.next) j = some k →
        j = i ∧ k = d.next ∨ j ≠ i ∧ d.held j = some k := by
      intro j k h
      by_cases same : j = i
      · rw [same, Function.update_self] at h
        exact Or.inl ⟨same, (Option.some.inj h).symm⟩
      · rw [Function.update_of_ne same] at h
        exact Or.inr ⟨same, h⟩
    refine ⟨left, ?_, ?_⟩
    · intro j k h
      rcases split h with ⟨_, rfl⟩ | ⟨_, old⟩
      · exact Nat.lt_succ_self _
      · exact Nat.lt_succ_of_lt (below j k old)
    · intro j j' k h h'
      rcases split h with ⟨rfl, fresh⟩ | ⟨_, old⟩ <;> rcases split h' with ⟨rfl, fresh'⟩ | ⟨_, old'⟩
      · rfl
      · exact absurd (below _ _ old') (by omega)
      · exact absurd (below _ _ old) (by omega)
      · exact exclusive _ _ _ old old'

/-! ### Accounting for the items -/

def Balanced (returned : List Nat) (working : Finset ι) (held : ι → Nat) (next : Nat) : Prop :=
  (returned : Multiset Nat) + ∑ i ∈ working, {held i} = Multiset.range next

variable {returned : List Nat} {working : Finset ι} {held held' : ι → Nat} {next : Nat} {i : ι}

omit [DecidableEq ι] in
theorem balanced_congr (same : ∀ i ∈ working, held' i = held i) :
    Balanced returned working held' next ↔ Balanced returned working held next := by
  rw [Balanced, Balanced, Finset.sum_congr rfl fun i member => congrArg _ (same i member)]

theorem balanced_start (n : Nat) : Balanced [] (Finset.range n) id n := by
  induction n with
  | zero => rfl
  | succ n ih =>
    rw [Balanced, Finset.sum_range_succ, ← add_assoc, ih, Multiset.range_succ, add_comm]
    rfl

theorem Balanced.give_back (balanced : Balanced returned working held next) (member : i ∈ working) :
    Balanced (returned ++ [held i]) (working.erase i) held next := by
  rw [Balanced, ← Finset.add_sum_erase _ _ member, ← add_assoc] at balanced
  exact balanced

theorem Balanced.take (balanced : Balanced returned working held next) (outside : i ∉ working) :
    Balanced returned (insert i working) (Function.update held i next) (next + 1) := by
  have others : ∑ j ∈ working, ({Function.update held i next j} : Multiset Nat) = ∑ j ∈ working, {held j} :=
    Finset.sum_congr rfl fun j member => by rw [Function.update_of_ne (ne_of_mem_of_not_mem member outside)]
  rw [Balanced, Finset.sum_insert outside, others, Function.update_self, add_left_comm, balanced, Multiset.range_succ]
  rfl

theorem Balanced.pass (balanced : Balanced returned working held next) (outside : i ∉ working) :
    Balanced (returned ++ [next]) working (Function.update held i next) (next + 1) := by
  have back := (balanced.take outside).give_back (Finset.mem_insert_self i working)
  rwa [Function.update_self, Finset.erase_insert outside] at back

omit [DecidableEq ι] in
theorem balanced_empty (balanced : Balanced returned working held next) (rest : working = ∅) :
    returned.Perm (List.range next) := by
  rw [Balanced, rest, Finset.sum_empty, add_zero] at balanced
  exact Multiset.coe_eq_coe.mp balanced

end Dispenser

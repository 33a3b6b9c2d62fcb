import Mathlib.Order.Nat

/-!
# Counting down to one wakeup

A group of `n` members retires one by one, and whoever retires last wakes the waiter.
-/

structure Countdown where
  remaining : Nat
  woken : Nat := 0

namespace Countdown

variable {n : Nat} {c d : Countdown}

/-- One member retires; the last one wakes the waiter. -/
def retire (c : Countdown) : Countdown :=
  ⟨c.remaining - 1, if c.remaining = 1 then c.woken + 1 else c.woken⟩

theorem retire_eq (h : c.remaining = n + 1) : c.retire = ⟨n, c.woken + if n = 0 then 1 else 0⟩ := by
  simp only [retire, h, Nat.add_sub_cancel, Nat.add_eq_right, Countdown.mk.injEq, true_and]
  split <;> rfl

inductive Step : Countdown → Countdown → Prop where
  | stay (c : Countdown) : Step c c
  | retire (c : Countdown) (some : 0 < c.remaining) : Step c c.retire

/-- Started with `n` members, the waiter is woken exactly when there was a member and none is left. -/
structure Exact (n : Nat) (c : Countdown) : Prop where
  bound : c.remaining ≤ n
  woken : c.woken = if c.remaining = 0 ∧ 0 < n then 1 else 0

theorem start_exact (n : Nat) : Exact n ⟨n, 0⟩ := by
  refine ⟨le_rfl, ?_⟩
  rw [if_neg (by simp only; omega)]

theorem step_exact (exact : Exact n c) (step : Step c d) : Exact n d := by
  cases step with
  | stay => exact exact
  | retire some =>
    obtain ⟨bound, woken⟩ := exact
    have asleep : c.woken = 0 := by rw [woken, if_neg (by omega)]
    refine ⟨by simp only [Countdown.retire]; omega, ?_⟩
    simp only [Countdown.retire, asleep]
    split <;> split <;> omega

theorem Exact.woken_le_one (exact : Exact n c) : c.woken ≤ 1 := by
  rw [exact.woken]; split <;> omega

theorem Exact.woken_iff (exact : Exact n c) : c.woken = 1 ↔ c.remaining = 0 ∧ 0 < n := by
  rw [exact.woken]; split <;> simp_all

end Countdown

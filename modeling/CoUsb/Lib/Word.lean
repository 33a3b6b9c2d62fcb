import Mathlib.Data.Nat.ModEq
import Mathlib.Algebra.BigOperators.Group.Finset.Basic

/-!
# Machine words as numbers

Unsigned words are naturals reduced modulo `2 ^ w`; narrowing an unsigned word to a
signed one of width `w` takes the representative of least magnitude.
-/

namespace Word

/-- The value of an unsigned `w`-bit word that was assigned `n`. -/
def wrap (w n : Nat) : Nat := n % 2 ^ w

/-- Unsigned subtraction. -/
def sub (w a b : Nat) : Nat := (2 ^ w - b % 2 ^ w + a) % 2 ^ w

/-- The value of a signed `w`-bit word that was assigned the unsigned `n`. -/
def narrow (w n : Nat) : Int :=
  if 2 * wrap w n < 2 ^ w then wrap w n else wrap w n - 2 ^ w

variable {w n a b c : Nat}

theorem wrap_of_lt (h : n < 2 ^ w) : wrap w n = n := Nat.mod_eq_of_lt h

theorem wrap_lt (w n : Nat) : wrap w n < 2 ^ w := Nat.mod_lt _ (Nat.two_pow_pos w)

theorem wrap_le (w n : Nat) : wrap w n ≤ n := Nat.mod_le _ _

@[simp] theorem wrap_wrap_add (w a b : Nat) : wrap w (wrap w a + b) = wrap w (a + b) := Nat.mod_add_mod _ _ _

theorem sub_of_le (le : b ≤ a) (h : a < 2 ^ w) : sub w a b = a - b := by
  have small : b % 2 ^ w = b := Nat.mod_eq_of_lt (by omega)
  have shift : 2 ^ w - b + a = (a - b) + 2 ^ w := by omega
  rw [sub, small, shift, Nat.add_mod_right, Nat.mod_eq_of_lt (by omega)]

theorem wrap_sum_update {ι : Type*} [DecidableEq ι] {s : Finset ι} {i : ι} (f : ι → Nat) (member : i ∈ s)
    (n : Nat) : wrap w (∑ j ∈ s, Function.update f i (wrap w (f i + n)) j) = wrap w (∑ j ∈ s, f j + n) := by
  rw [← Finset.add_sum_erase _ _ member, ← Finset.add_sum_erase _ f member, Function.update_self, wrap_wrap_add]
  have rest : ∑ j ∈ s.erase i, Function.update f i (wrap w (f i + n)) j = ∑ j ∈ s.erase i, f j :=
    Finset.sum_congr rfl fun j hj => Function.update_of_ne (Finset.ne_of_mem_erase hj) _ _
  rw [rest]
  congr 1
  omega

theorem narrow_of_lt (h : 2 * n < 2 ^ w) : narrow w n = n := by
  have small : wrap w n = n := wrap_of_lt (by omega)
  rw [narrow, small, if_pos h]

theorem narrow_eq_iff : narrow w n = n ↔ 2 * n < 2 ^ w := by
  refine ⟨fun same => ?_, narrow_of_lt⟩
  have le := wrap_le w n
  have lt := wrap_lt w n
  unfold narrow at same
  split at same
  case isTrue half =>
    have whole : wrap w n = n := by exact_mod_cast same
    rwa [whole] at half
  case isFalse =>
    have cast : (wrap w n : Int) < ((2 ^ w : Nat) : Int) := by exact_mod_cast lt
    push_cast at cast
    omega

theorem narrow_toNat_le (w n : Nat) : (narrow w n).toNat ≤ n := by
  have le := wrap_le w n
  have lt := wrap_lt w n
  unfold narrow
  split
  case isTrue => exact le
  case isFalse =>
    have negative : (wrap w n : Int) - 2 ^ w ≤ 0 := by
      have cast : (wrap w n : Int) < ((2 ^ w : Nat) : Int) := by exact_mod_cast lt
      push_cast at cast
      omega
    rw [Int.toNat_of_nonpos negative]
    exact Nat.zero_le _

end Word

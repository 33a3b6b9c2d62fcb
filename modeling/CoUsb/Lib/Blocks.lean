import Mathlib.Data.List.Range

/-!
# Sequences made of numbered blocks

A sequence whose elements come in the order of their block numbers is its blocks, one after
the other.
-/

namespace Blocks

variable {α : Type*} {key : α → Nat} {l m : List α} {k n : Nat}

/-- The part of a sequence that belongs to block `k`. -/
def block (key : α → Nat) (k : Nat) (l : List α) : List α := l.filter fun a => key a = k

def Ordered (key : α → Nat) (l : List α) : Prop := l.Pairwise fun a b => key a ≤ key b

@[simp] theorem block_nil (k : Nat) : block key k [] = [] := rfl

@[simp] theorem block_append (k : Nat) (l m : List α) : block key k (l ++ m) = block key k l ++ block key k m :=
  List.filter_append ..

theorem block_same (all : ∀ a ∈ l, key a = k) : block key k l = l :=
  List.filter_eq_self.mpr fun a member => by simp [all a member]

theorem block_other (none : ∀ a ∈ l, key a ≠ k) : block key k l = [] :=
  List.filter_eq_nil_iff.mpr fun a member => by simp [none a member]

theorem Ordered.append (ordered : Ordered key l) (same : ∀ a ∈ m, key a = k) (below : ∀ a ∈ l, key a ≤ k) :
    Ordered key (l ++ m) := by
  refine List.pairwise_append.mpr ⟨ordered, ?_, fun a ha b hb => (below a ha).trans_eq (same b hb).symm⟩
  exact List.pairwise_of_forall_mem_list fun a ha b hb => ((same a ha).trans (same b hb).symm).le

theorem Ordered.split (ordered : Ordered key l) (k : Nat) :
    l.filter (fun a => key a < k + 1) = l.filter (fun a => key a < k) ++ block key k l := by
  unfold block
  induction l with
  | nil => rfl
  | cons a l ih =>
    obtain ⟨least, rest⟩ := List.pairwise_cons.mp ordered
    have later := ih rest
    by_cases below : key a < k
    · have different : ¬ key a = k := by omega
      rw [List.filter_cons_of_pos (by simpa using Nat.lt_succ_of_lt below),
        List.filter_cons_of_pos (by simpa using below),
        List.filter_cons_of_neg (by simpa using different), later]
      rfl
    · have empty : l.filter (fun b => key b < k) = [] :=
        List.filter_eq_nil_iff.mpr fun b member => by simpa using (Nat.not_lt.mp below).trans (least b member)
      rw [List.filter_cons_of_neg (a := a) (p := fun b => decide (key b < k)) (by simpa using below), empty,
        List.nil_append]
      rw [empty, List.nil_append] at later
      by_cases here : key a = k
      · rw [List.filter_cons_of_pos (by simp [here]), List.filter_cons_of_pos (by simp [here]), later]
      · have above : ¬ key a < k + 1 := by omega
        rw [List.filter_cons_of_neg (by simpa using above), List.filter_cons_of_neg (by simpa using here), later]

/-- An ordered sequence is the concatenation of its blocks. -/
theorem Ordered.eq_blocks (ordered : Ordered key l) (bound : ∀ a ∈ l, key a < n) :
    l = (List.range n).flatMap fun k => block key k l := by
  have below : ∀ n, l.filter (fun a => key a < n) = (List.range n).flatMap fun k => block key k l := by
    intro n
    induction n with
    | zero => simp
    | succ n ih => rw [ordered.split, ih, List.range_succ, List.flatMap_append, List.flatMap_singleton]
  rw [← below n]
  exact (List.filter_eq_self.mpr fun a member => by simpa using bound a member).symm

end Blocks

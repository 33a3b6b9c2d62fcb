import Mathlib.Data.List.Nodup
import Mathlib.Data.Nat.Basic
import Mathlib.Order.Nat

/-!
# Items in one place

Numbered items arrive one by one, into a store or straight to an owner, and owners take
items out of the store. An owner has at most one item.
-/

/-- The items below `count` are in the store or with an owner. -/
structure Custody (ι : Type*) where
  count : Nat
  stored : List Nat
  owned : ι → Option Nat

namespace Custody

variable {ι : Type*} {c c' : Custody ι} {i j : ι} {n : Nat}

/-- No item is in two places, and every item is in one. -/
structure Valid (c : Custody ι) : Prop where
  distinct : c.stored.Nodup
  stored_lt : ∀ n ∈ c.stored, n < c.count
  owned_lt : ∀ i n, c.owned i = some n → n < c.count ∧ n ∉ c.stored
  exclusive : ∀ i j n, c.owned i = some n → c.owned j = some n → i = j
  placed : ∀ n < c.count, n ∈ c.stored ∨ ∃ i, c.owned i = some n

theorem empty_valid : Valid (⟨0, [], fun _ => none⟩ : Custody ι) :=
  ⟨List.nodup_nil, by simp, by simp, by simp, by simp⟩

theorem Valid.store (valid : Valid c) : Valid { c with count := c.count + 1, stored := c.stored ++ [c.count] } := by
  obtain ⟨distinct, below, owned, exclusive, placed⟩ := valid
  have fresh : c.count ∉ c.stored := fun member => (below _ member).false
  refine ⟨?_, fun n member => ?_, fun i n now => ?_, exclusive, fun n bound => ?_⟩
  · exact List.nodup_append_comm.mp (List.nodup_cons.mpr ⟨fresh, distinct⟩)
  · rcases List.mem_append.mp member with old | new
    · exact Nat.lt_succ_of_lt (below n old)
    · rw [List.mem_singleton.mp new]
      exact Nat.lt_succ_self _
  · obtain ⟨bound, apart⟩ := owned i n now
    refine ⟨Nat.lt_succ_of_lt bound, fun member => ?_⟩
    rcases List.mem_append.mp member with old | new
    · exact apart old
    · exact bound.ne (List.mem_singleton.mp new)
  · rcases Nat.lt_succ_iff_lt_or_eq.mp bound with old | rfl
    · exact (placed n old).imp_left (List.mem_append_left _)
    · exact .inl (by simp)

variable [DecidableEq ι]

theorem owned_update {owned : ι → Option Nat} {k : Nat} (now : Function.update owned i (some k) j = some n) :
    j = i ∧ n = k ∨ j ≠ i ∧ owned j = some n := by
  by_cases same : j = i
  · rw [same, Function.update_self] at now
    exact .inl ⟨same, (Option.some.inj now).symm⟩
  · rw [Function.update_of_ne same] at now
    exact .inr ⟨same, now⟩

theorem Valid.give {stored : List Nat} {count k : Nat} (valid : Valid c) (free : c.owned i = none)
    (distinct : stored.Nodup) (fewer : stored ⊆ c.stored) (more : c.count ≤ count) (bound : k < count)
    (taken : k ∉ stored)
    (unowned : ∀ j, c.owned j ≠ some k) (placed : ∀ n < count, n = k ∨ n ∈ stored ∨ n < c.count ∧ n ∉ c.stored) :
    Valid ⟨count, stored, Function.update c.owned i (some k)⟩ := by
  refine ⟨distinct, fun n member => (valid.stored_lt n (fewer member)).trans_le more, fun j n now => ?_,
    fun j j' n now now' => ?_, fun n below => ?_⟩
  · rcases owned_update now with ⟨_, rfl⟩ | ⟨_, old⟩
    · exact ⟨bound, taken⟩
    · obtain ⟨below, apart⟩ := valid.owned_lt j n old
      exact ⟨below.trans_le more, fun member => apart (fewer member)⟩
  · rcases owned_update now with ⟨rfl, rfl⟩ | ⟨_, old⟩ <;> rcases owned_update now' with ⟨rfl, same⟩ | ⟨_, old'⟩
    · rfl
    · exact absurd old' (unowned _)
    · exact absurd (same ▸ old) (unowned _)
    · exact valid.exclusive _ _ _ old old'
  · rcases placed n below with rfl | stays | ⟨old, apart⟩
    · exact .inr ⟨i, Function.update_self ..⟩
    · exact .inl stays
    · obtain ⟨j, owner⟩ := (valid.placed n old).resolve_left apart
      refine .inr ⟨j, ?_⟩
      have other : j ≠ i := by
        rintro rfl
        cases free.symm.trans owner
      show Function.update c.owned i (some k) j = some n
      rw [Function.update_of_ne other]
      exact owner

theorem Valid.take {rest : List Nat} (valid : Valid c) (last : c.stored = rest ++ [n]) (free : c.owned i = none) :
    Valid { c with stored := rest, owned := Function.update c.owned i (some n) } := by
  have distinct := valid.distinct
  rw [last] at distinct
  have member : n ∈ c.stored := by simp [last]
  have gone : n ∉ rest := fun stays => (List.nodup_append.mp distinct).2.2 n stays n (by simp) rfl
  refine valid.give free (List.nodup_append.mp distinct).1 (by simp [last]) le_rfl (valid.stored_lt n member) gone
    (fun j owner => (valid.owned_lt j n owner).2 member) fun m below => ?_
  by_cases inside : m ∈ c.stored
  · rw [last, List.mem_append, List.mem_singleton] at inside
    exact inside.elim (fun stays => .inr (.inl stays)) .inl
  · exact .inr (.inr ⟨below, inside⟩)

theorem Valid.deliver (valid : Valid c) (free : c.owned i = none) :
    Valid { c with count := c.count + 1, owned := Function.update c.owned i (some c.count) } := by
  refine valid.give free valid.distinct (List.Subset.refl _) (Nat.le_succ _) (Nat.lt_succ_self _)
    (fun member => (valid.stored_lt _ member).false) (fun j owner => (valid.owned_lt j _ owner).1.false)
    fun m below => ?_
  rcases Nat.lt_succ_iff_lt_or_eq.mp below with old | rfl
  · by_cases inside : m ∈ c.stored
    · exact .inr (.inl inside)
    · exact .inr (.inr ⟨old, inside⟩)
  · exact .inl rfl

theorem owned_clear {owned : ι → Option Nat} (now : Function.update owned i none j = some n) :
    j ≠ i ∧ owned j = some n := by
  have other : j ≠ i := by
    rintro rfl
    rw [Function.update_self] at now
    cases now
  rw [Function.update_of_ne other] at now
  exact ⟨other, now⟩

theorem Valid.giveBack (valid : Valid c) (owner : c.owned i = some n) :
    Valid { c with stored := c.stored ++ [n], owned := Function.update c.owned i none } := by
  obtain ⟨bound, apart⟩ := valid.owned_lt i n owner
  refine ⟨?_, fun m member => ?_, fun j m now => ?_, fun j j' m now now' => ?_, fun m below => ?_⟩
  · exact List.nodup_append_comm.mp (List.nodup_cons.mpr ⟨apart, valid.distinct⟩)
  · rcases List.mem_append.mp member with old | new
    · exact valid.stored_lt m old
    · rw [List.mem_singleton.mp new]
      exact bound
  · obtain ⟨other, old⟩ := owned_clear now
    obtain ⟨below, outside⟩ := valid.owned_lt j m old
    refine ⟨below, fun member => (List.mem_append.mp member).elim outside fun new => other ?_⟩
    rw [List.mem_singleton.mp new] at old
    exact valid.exclusive _ _ _ old owner
  · exact valid.exclusive _ _ _ (owned_clear now).2 (owned_clear now').2
  · rcases valid.placed m below with old | ⟨j, old⟩
    · exact .inl (List.mem_append_left _ old)
    · by_cases same : j = i
      · rw [same] at old
        exact .inl (by simp [Option.some.inj (old.symm.trans owner)])
      · exact .inr ⟨j, (Function.update_of_ne same ..).trans old⟩

theorem Valid.handOver (valid : Valid c) (free : c.owned j = none) (different : j ≠ i) :
    Valid { c with owned := Function.update (Function.update c.owned j (c.owned i)) i none } := by
  have before : ∀ k n, Function.update (Function.update c.owned j (c.owned i)) i none k = some n →
      k = j ∧ c.owned i = some n ∨ k ≠ i ∧ k ≠ j ∧ c.owned k = some n := by
    intro k n now
    obtain ⟨other, now⟩ := owned_clear now
    by_cases same : k = j
    · rw [same, Function.update_self] at now
      exact .inl ⟨same, now⟩
    · rw [Function.update_of_ne same] at now
      exact .inr ⟨other, same, now⟩
  refine ⟨valid.distinct, valid.stored_lt, fun k n now => ?_, fun k k' n now now' => ?_, fun n below => ?_⟩
  · rcases before k n now with ⟨_, old⟩ | ⟨_, _, old⟩ <;> exact valid.owned_lt _ n old
  · rcases before k n now with ⟨rfl, old⟩ | ⟨apart, _, old⟩ <;>
      rcases before k' n now' with ⟨rfl, old'⟩ | ⟨apart', _, old'⟩
    · rfl
    · exact absurd (valid.exclusive _ _ _ old' old) apart'
    · exact absurd (valid.exclusive _ _ _ old old') apart
    · exact valid.exclusive _ _ _ old old'
  · apply (valid.placed n below).imp_right
    rintro ⟨k, old⟩
    by_cases same : k = i
    · subst same
      refine ⟨j, ?_⟩
      show Function.update (Function.update c.owned j (c.owned k)) k none j = some n
      rw [Function.update_of_ne different, Function.update_self]
      exact old
    · refine ⟨k, ?_⟩
      have other : k ≠ j := by
        rintro rfl
        cases free.symm.trans old
      show Function.update (Function.update c.owned j (c.owned i)) i none k = some n
      rw [Function.update_of_ne same, Function.update_of_ne other]
      exact old

end Custody

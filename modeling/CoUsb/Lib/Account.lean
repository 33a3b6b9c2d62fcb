import Mathlib.Data.List.Perm.Basic

/-!
# Counted references

Slots that each designate one target or none, and the calls that acquire and release targets. The account is
balanced when every target was acquired once more for each slot that designates it than it was released.
-/

structure Account (T : Type*) where
  acquired : List T
  released : List T
  designated : List T

namespace Account

/-! ### Slots -/

section

variable {α β : Type*} {f : α → Option β} {l : List α} {i : Nat} {x y : α}

theorem filterMap_cons_append (f : α → Option β) (x : α) (l : List α) :
    (x :: l).filterMap f = (f x).toList ++ l.filterMap f := by
  rw [List.filterMap_cons]
  cases f x <;> rfl

theorem filterMap_set_perm (at_i : l[i]? = some x) :
    ((l.set i y).filterMap f ++ (f x).toList).Perm (l.filterMap f ++ (f y).toList) := by
  induction l generalizing i with
  | nil => cases at_i
  | cons z l ih =>
    cases i with
    | zero =>
      obtain rfl := Option.some.inj at_i
      rw [List.set_cons_zero, filterMap_cons_append, filterMap_cons_append, List.append_assoc, List.append_assoc]
      exact List.perm_append_comm.trans ((List.perm_append_comm.append_right _).trans (.of_eq (List.append_assoc ..)))
    | succ i =>
      rw [List.set_cons_succ, filterMap_cons_append, filterMap_cons_append, List.append_assoc, List.append_assoc]
      exact (ih at_i).append_left _

theorem filterMap_set_set_perm {j : Nat} {v w : α} (at_i : l[i]? = some x) (at_j : l[j]? = some y) (apart : i ≠ j) :
    (((l.set i v).set j w).filterMap f ++ ((f x).toList ++ (f y).toList)).Perm
      (l.filterMap f ++ ((f v).toList ++ (f w).toList)) := by
  have first : ((l.set i v).filterMap f ++ (f x).toList).Perm (l.filterMap f ++ (f v).toList) :=
    filterMap_set_perm at_i
  have second : (((l.set i v).set j w).filterMap f ++ (f y).toList).Perm
      ((l.set i v).filterMap f ++ (f w).toList) :=
    filterMap_set_perm ((List.getElem?_set_ne apart).trans at_j)
  have swapped : ((f x).toList ++ (f y).toList).Perm ((f y).toList ++ (f x).toList) := List.perm_append_comm
  refine (swapped.append_left _).trans ?_
  rw [← List.append_assoc]
  refine (second.append_right _).trans ?_
  rw [List.append_assoc]
  refine (List.perm_append_comm.append_left _).trans ?_
  rw [← List.append_assoc, ← List.append_assoc]
  exact first.append_right _

theorem two_le_count [DecidableEq β] {j : Nat} {v : β} (at_i : l[i]? = some x) (at_j : l[j]? = some y)
    (here : f x = some v) (there : f y = some v) (apart : i ≠ j) : 2 ≤ (l.filterMap f).count v := by
  wlog lt : i < j generalizing i j x y
  · exact this at_j at_i there here apart.symm (by omega)
  obtain ⟨inside, rfl⟩ := List.getElem?_eq_some_iff.mp at_i
  have first : v ∈ (l.take (i + 1)).filterMap f :=
    List.mem_filterMap.mpr ⟨_, List.mem_take_iff_getElem.mpr ⟨i, by omega, rfl⟩, here⟩
  have second : v ∈ (l.drop (i + 1)).filterMap f := by
    refine List.mem_filterMap.mpr ⟨y, List.mem_of_getElem? (i := j - (i + 1)) ?_, there⟩
    rw [List.getElem?_drop, Nat.add_sub_of_le lt]
    exact at_j
  have split : (l.filterMap f).count v =
      ((l.take (i + 1)).filterMap f).count v + ((l.drop (i + 1)).filterMap f).count v := by
    rw [← List.count_append, ← List.filterMap_append, List.take_append_drop]
  have one := List.count_pos_iff.mpr first
  have two := List.count_pos_iff.mpr second
  omega

end

/-! ### The balance -/

variable {T : Type*} [DecidableEq T] {a b : Account T} {acquired released old new : List T}

def Balanced (a : Account T) : Prop := ∀ t, a.acquired.count t = a.released.count t + a.designated.count t

/-- No target is released too often. -/
def Solvent (a : Account T) : Prop := ∀ t, a.released.count t + a.designated.count t ≤ a.acquired.count t

/-- One operation: its calls, and the slots it changes from designating `old` to designating `new`. -/
structure Moves (a b : Account T) (acquired released old new : List T) : Prop where
  acquired : b.acquired = a.acquired ++ acquired
  released : b.released = a.released ++ released
  designated : (b.designated ++ old).Perm (a.designated ++ new)

/-- What is released and designated afterwards was acquired or designated before. -/
def Covered (acquired released old new : List T) : Prop :=
  ∀ t, released.count t + new.count t ≤ acquired.count t + old.count t

theorem Moves.designated_count (moves : Moves a b acquired released old new) (t : T) :
    b.designated.count t + old.count t = a.designated.count t + new.count t := by
  rw [← List.count_append, ← List.count_append]
  exact moves.designated.count_eq t

theorem Moves.trans {c : Account T} {acquired' released' old' new' : List T}
    (first : Moves a b acquired released old new) (second : Moves b c acquired' released' old' new') :
    Moves a c (acquired ++ acquired') (released ++ released') (old ++ old') (new ++ new') := by
  refine ⟨?_, ?_, List.perm_iff_count.mpr fun t => ?_⟩
  · rw [second.acquired, first.acquired, List.append_assoc]
  · rw [second.released, first.released, List.append_assoc]
  · have one := first.designated_count t
    have two := second.designated_count t
    simp only [List.count_append]
    omega

theorem Moves.solvent (moves : Moves a b acquired released old new) (covered : Covered acquired released old new)
    (solvent : a.Solvent) : b.Solvent := by
  intro t
  have exchanged := moves.designated_count t
  have enough := covered t
  have before := solvent t
  rw [moves.acquired, moves.released, List.count_append, List.count_append]
  omega

/-- A surplus stays, so the account is balanced after an operation exactly when it was before and the operation is. -/
theorem Moves.balanced_iff (moves : Moves a b acquired released old new)
    (covered : Covered acquired released old new) (solvent : a.Solvent) :
    b.Balanced ↔ a.Balanced ∧ (acquired ++ old).Perm (released ++ new) := by
  rw [List.perm_iff_count, Balanced, Balanced, ← forall_and]
  apply forall_congr'
  intro t
  have exchanged := moves.designated_count t
  have enough := covered t
  have before := solvent t
  rw [moves.acquired, moves.released]
  simp only [List.count_append]
  omega

theorem covered_of_perm (even : (acquired ++ old).Perm (released ++ new)) : Covered acquired released old new := by
  intro t
  have same := even.count_eq t
  rw [List.count_append, List.count_append] at same
  exact Nat.le_of_eq same.symm

/-- An operation that never releases too much, and enough exactly when `even` holds. -/
def Operates (a b : Account T) (even : Prop) : Prop :=
  ∃ acquired released old new, Moves a b acquired released old new ∧ Covered acquired released old new ∧
    ((acquired ++ old).Perm (released ++ new) ↔ even)

variable {even : Prop}

theorem Moves.operates (moves : Moves a b acquired released old new)
    (balanced : (acquired ++ old).Perm (released ++ new)) (holds : even) : Operates a b even :=
  ⟨_, _, _, _, moves, covered_of_perm balanced, iff_of_true balanced holds⟩

theorem Operates.refl (a : Account T) (holds : even) : Operates a a even :=
  have moves : Moves a a [] [] [] [] := ⟨(List.append_nil _).symm, (List.append_nil _).symm, .refl _⟩
  moves.operates (.refl _) holds

theorem Operates.keeps (operates : Operates a b even) (solvent : a.Solvent) :
    b.Solvent ∧ (b.Balanced ↔ a.Balanced ∧ even) := by
  obtain ⟨_, _, _, _, moves, covered, same⟩ := operates
  exact ⟨moves.solvent covered solvent, by rw [moves.balanced_iff covered solvent, same]⟩

end Account

import Mathlib.Data.List.Basic

/-!
# Lists of slots

What is seen through `f` at a position of a list that objects are added to and replaced in.
-/

namespace Slots

variable {α β : Type*}

def look (f : α → Option β) (l : List α) (i : Nat) : Option β := l[i]?.bind f

variable {f : α → Option β} {l : List α} {x y : α} {b : β} {i j : Nat}

theorem look_of (here : l[i]? = some x) : look f l i = f x := by
  rw [look, here]
  rfl

theorem lt_of_look (found : look f l i = some b) : i < l.length := by
  obtain ⟨_, here, _⟩ := Option.bind_eq_some_iff.mp found
  exact (List.getElem?_eq_some_iff.mp here).1

theorem look_set (inside : i < l.length) : look f (l.set i x) j = if j = i then f x else look f l j := by
  unfold look
  by_cases same : j = i
  · rw [same, List.getElem?_set_self inside, if_pos rfl]
    rfl
  · rw [List.getElem?_set_ne (Ne.symm same), if_neg same]

theorem look_append : look f (l ++ [x]) j = if j = l.length then f x else look f l j := by
  unfold look
  by_cases same : j = l.length
  · rw [same, List.getElem?_concat_length, if_pos rfl]
    rfl
  · rw [if_neg same]
    by_cases before : j < l.length
    · rw [List.getElem?_append_left before]
    · rw [List.getElem?_eq_none (by simp; omega), List.getElem?_eq_none (by omega)]

/-- Setting an object to one that looks the same is not seen. -/
theorem look_set_same (y : α) (here : l[i]? = some x) (same : f y = f x) : look f (l.set i y) = look f l := by
  funext j
  rw [look_set (List.getElem?_eq_some_iff.mp here).1]
  split
  case isTrue at_i => rw [at_i, look_of here, same]
  case isFalse => rfl

end Slots

import Mathlib.Data.List.Infix

/-!
# Properties of the past of a log

`Since`: something was opened and has not been closed since. `Always`: each entry fits the log before it.
-/

namespace Log

variable {A : Type*} {opens closes : A → Prop} {P : List A → A → Prop} {log more : List A} {x : A}

/-- An entry that opens, and after it none that closes. -/
def Since (opens closes : A → Prop) (log : List A) : Prop :=
  ∃ before x after, log = before ++ x :: after ∧ opens x ∧ ∀ y ∈ after, ¬ closes y

theorem not_since_nil : ¬ Since opens closes [] := by
  rintro ⟨before, x, after, split, _⟩
  simp at split

theorem since_concat : Since opens closes (log ++ [x]) ↔ opens x ∨ (Since opens closes log ∧ ¬ closes x) := by
  constructor
  · rintro ⟨before, y, after, split, opened, kept⟩
    rcases after.eq_nil_or_concat' with rfl | ⟨after, z, rfl⟩
    · obtain ⟨_, same⟩ := List.append_inj' split rfl
      obtain rfl := List.singleton_inj.mp same
      exact .inl opened
    · rw [← List.cons_append, ← List.append_assoc] at split
      obtain ⟨rfl, same⟩ := List.append_inj' split rfl
      obtain rfl := List.singleton_inj.mp same
      exact .inr ⟨⟨before, y, after, rfl, opened, fun w member => kept w (by simp [member])⟩, kept x (by simp)⟩
  · rintro (opened | ⟨⟨before, y, after, rfl, opened, kept⟩, open'⟩)
    · exact ⟨log, x, [], rfl, opened, by simp⟩
    · refine ⟨before, y, after ++ [x], by simp, opened, fun w member => ?_⟩
      rcases List.mem_append.mp member with old | new
      · exact kept w old
      · exact List.mem_singleton.mp new ▸ open'

theorem since_append_iff (quiet : ∀ y ∈ more, ¬ opens y ∧ ¬ closes y) :
    Since opens closes (log ++ more) ↔ Since opens closes log := by
  induction more using List.reverseRecOn with
  | nil => rw [List.append_nil]
  | append_singleton more y ih =>
    obtain ⟨unopened, unclosed⟩ := quiet y (by simp)
    rw [← List.append_assoc, since_concat, ih fun z member => quiet z (by simp [member])]
    simp [unopened, unclosed]

theorem Since.mem (since : Since opens closes log) : ∃ x ∈ log, opens x := by
  obtain ⟨before, x, after, rfl, opened, _⟩ := since
  exact ⟨x, by simp, opened⟩

/-- Each entry fits what is logged before it. -/
def Always (P : List A → A → Prop) (log : List A) : Prop := ∀ before x, before ++ [x] <+: log → P before x

theorem always_nil : Always P [] := by
  intro before x initial
  simp at initial

theorem always_concat : Always P (log ++ [x]) ↔ Always P log ∧ P log x := by
  constructor
  · exact fun always => ⟨fun before y initial => always before y (initial.trans (List.prefix_append _ _)),
      always log x List.prefix_rfl⟩
  · rintro ⟨earlier, last⟩ before y initial
    rcases List.prefix_concat_iff.mp initial with whole | proper
    · obtain ⟨rfl, same⟩ := List.append_inj' whole rfl
      exact List.singleton_inj.mp same ▸ last
    · exact earlier before y proper

theorem always_append_iff (fits : ∀ before, ∀ y ∈ more, P before y) : Always P (log ++ more) ↔ Always P log := by
  induction more using List.reverseRecOn with
  | nil => rw [List.append_nil]
  | append_singleton more y ih =>
    rw [← List.append_assoc, always_concat, ih fun before z member => fits before z (by simp [member])]
    exact and_iff_left (fits _ y (by simp))

theorem always_append_of_le_one (one : more.length ≤ 1) :
    Always P (log ++ more) ↔ Always P log ∧ ∀ x ∈ more, P log x := by
  match more, one with
  | [], _ => simp
  | [x], _ => simp [always_concat]

/-! ### Numbered entries -/

/-- Entries that are numbered by their positions do not repeat. -/
theorem nodup_of_numbered {B : Type*} {f : A → Option B} {number : B → Nat}
    (numbered : ∀ (i : Nat) a b, log[i]? = some a → f a = some b → number b = i) : (log.filterMap f).Nodup := by
  induction log using List.reverseRecOn with
  | nil => exact List.nodup_nil
  | append_singleton log a ih =>
    have inside : ∀ {i : Nat} {a' : A}, log[i]? = some a' → i < log.length ∧ (log ++ [a])[i]? = some a' := by
      intro i a' found
      have lt := (List.getElem?_eq_some_iff.mp found).1
      exact ⟨lt, (List.getElem?_append_left lt).trans found⟩
    have distinct := ih fun i a b found => numbered i a b (inside found).2
    rw [List.filterMap_append]
    refine List.nodup_append.mpr ⟨distinct, ?_, ?_⟩
    · cases made : f a <;> simp [made]
    · rintro b old b' new rfl
      obtain ⟨a', member, made⟩ := List.mem_filterMap.mp old
      obtain ⟨i, found⟩ := List.mem_iff_getElem?.mp member
      obtain ⟨lt, found⟩ := inside found
      obtain ⟨a'', last, again⟩ := List.mem_filterMap.mp new
      obtain rfl := List.mem_singleton.mp last
      have early := numbered i a' b found made
      have late := numbered log.length a'' b (by simp) again
      omega

end Log

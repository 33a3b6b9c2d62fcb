import Mathlib.Data.List.Infix

/-!
# Machines driven by events

A machine takes one event at a time; an event that is not enabled has no successor.
The rules below carry an invariant from one step to a whole run, forwards from the
start state and backwards from the last one.
-/

structure Machine (S E : Type*) where
  step : S → E → Option S

namespace Machine

variable {S E : Type*} {m : Machine S E} {s t : S} {e : E} {es fs : List E}

/-- The state after the events `es`, when each of them was enabled. -/
def run (m : Machine S E) (s : S) (es : List E) : Option S := es.foldlM m.step s

@[simp] theorem run_nil : m.run s [] = some s := rfl

theorem run_append : m.run s (es ++ fs) = (m.run s es).bind fun t => m.run t fs :=
  List.foldlM_append

theorem run_append_some : m.run s (es ++ fs) = some t ↔ ∃ u, m.run s es = some u ∧ m.run u fs = some t := by
  rw [run_append, Option.bind_eq_some_iff]

theorem run_append_singleton : m.run s (es ++ [e]) = (m.run s es).bind fun t => m.step t e := by
  rw [run_append]
  simp [run]

theorem run_concat : m.run s (es ++ [e]) = some t ↔ ∃ u, m.run s es = some u ∧ m.step u e = some t := by
  rw [run_append_some]
  simp [run]

theorem run_cons : m.run s (e :: es) = some t ↔ ∃ u, m.step s e = some u ∧ m.run u es = some t := by
  simp [run, List.foldlM_cons, Option.bind_eq_some_iff]

/-! ### Invariants -/

theorem run_invariant {I : S → Prop} (keep : ∀ {s e t}, I s → m.step s e = some t → I t)
    (start : I s) (h : m.run s es = some t) : I t := by
  induction es using List.reverseRecOn generalizing t with
  | nil => exact Option.some.inj h ▸ start
  | append_singleton es e ih =>
    obtain ⟨u, before, last⟩ := run_concat.mp h
    exact keep (ih before) last

theorem exists_leaving {I : S → Prop} (start : I s) (h : m.run s es = some t) (out : ¬ I t) :
    ∃ fs e rest u v, es = fs ++ e :: rest ∧ m.run s fs = some u ∧ I u ∧ m.step u e = some v ∧ ¬ I v := by
  induction es generalizing s with
  | nil => exact absurd (Option.some.inj h ▸ start) out
  | cons e es ih =>
    obtain ⟨u, first, later⟩ := run_cons.mp h
    by_cases inside : I u
    · obtain ⟨fs, f, rest, v, w, rfl, reached, here, last, left⟩ := ih inside later
      exact ⟨e :: fs, f, rest, v, w, rfl, run_cons.mpr ⟨u, first, reached⟩, here, last, left⟩
    · exact ⟨[], e, es, s, u, rfl, rfl, start, first, inside⟩

/-! ### Runs whose steps meet a condition -/

/-- Every step of the run `es` meets `C`, a condition on the state before it and its event. -/
def Meets (m : Machine S E) (C : S → E → Prop) (s : S) (es : List E) : Prop :=
  ∀ fs e t, fs ++ [e] <+: es → m.run s fs = some t → C t e

variable {C : S → E → Prop}

theorem meets_nil : m.Meets C s [] := by
  intro fs e t initial
  simp at initial

/-- Events that meet `C` in every state. -/
theorem meets_of_forall (all : ∀ e ∈ es, ∀ t, C t e) : m.Meets C s es :=
  fun fs e t initial _ => all e (initial.subset (List.mem_append_right fs (List.mem_singleton_self e))) t

theorem Meets.of_prefix (meets : m.Meets C s fs) (initial : es <+: fs) : m.Meets C s es :=
  fun gs e t h => meets gs e t (h.trans initial)

theorem Meets.last (meets : m.Meets C s (es ++ [e])) (h : m.run s es = some t) : C t e :=
  meets es e t List.prefix_rfl h

theorem meets_concat (earlier : m.Meets C s es) (last : ∀ t, m.run s es = some t → C t e) :
    m.Meets C s (es ++ [e]) := by
  intro fs f t initial h
  rcases List.prefix_concat_iff.mp initial with whole | proper
  · obtain ⟨rfl, same⟩ := List.append_inj' whole rfl
    obtain rfl := List.singleton_inj.mp same
    exact last t h
  · exact earlier fs f t proper h

theorem meets_concat_iff (h : m.run s es = some t) : m.Meets C s (es ++ [e]) ↔ m.Meets C s es ∧ C t e := by
  constructor
  · exact fun meets => ⟨meets.of_prefix (List.prefix_append _ _), meets.last h⟩
  · rintro ⟨earlier, last⟩
    apply meets_concat earlier
    intro u same
    exact Option.some.inj (h.symm.trans same) ▸ last

/-- A property that a step keeps exactly when it meets `C` holds after a run exactly when the run meets `C`. -/
theorem meets_iff {I P : S → Prop} (keep : ∀ {s e t}, I s → m.step s e = some t → I t ∧ (P t ↔ P s ∧ C s e))
    (start : I s) (first : P s) (h : m.run s es = some t) : I t ∧ (P t ↔ m.Meets C s es) := by
  induction es using List.reverseRecOn generalizing t with
  | nil =>
    obtain rfl := Option.some.inj h
    exact ⟨start, iff_of_true first meets_nil⟩
  | append_singleton es e ih =>
    obtain ⟨u, before, last⟩ := run_concat.mp h
    obtain ⟨inside, earlier⟩ := ih before
    obtain ⟨next, same⟩ := keep inside last
    exact ⟨next, by rw [same, earlier, meets_concat_iff before]⟩

/-- The same from any state. -/
theorem meets_iff_from {I P : S → Prop} (keep : ∀ {s e t}, I s → m.step s e = some t → I t ∧ (P t ↔ P s ∧ C s e))
    (start : I s) (h : m.run s es = some t) : I t ∧ (P t ↔ P s ∧ m.Meets C s es) := by
  induction es using List.reverseRecOn generalizing t with
  | nil =>
    obtain rfl := Option.some.inj h
    exact ⟨start, (and_iff_left meets_nil).symm⟩
  | append_singleton es e ih =>
    obtain ⟨u, before, last⟩ := run_concat.mp h
    obtain ⟨inside, earlier⟩ := ih before
    obtain ⟨next, same⟩ := keep inside last
    exact ⟨next, by rw [same, earlier, meets_concat_iff before, and_assoc]⟩

/-- A run that does not meet `C` splits at a step that does not. -/
theorem exists_of_not_meets (h : m.run s es = some t) (fails : ¬ m.Meets C s es) :
    ∃ fs e rest u v, es = fs ++ e :: rest ∧ m.run s fs = some u ∧ ¬ C u e ∧ m.step u e = some v ∧
      m.run v rest = some t := by
  simp only [Meets, not_forall] at fails
  obtain ⟨fs, e, u, ⟨rest, split⟩, reached, broken⟩ := fails
  rw [List.append_assoc] at split
  rw [← split] at h
  obtain ⟨w, first, later⟩ := run_append_some.mp h
  obtain rfl := Option.some.inj (first.symm.trans reached)
  obtain ⟨v, step, last⟩ := run_cons.mp later
  exact ⟨fs, e, rest, w, v, split.symm, reached, broken, step, last⟩

/-- An invariant kept by the steps that meet `C` holds after every run that meets `C`. -/
theorem run_invariant_of_meets {I : S → Prop}
    (keep : ∀ {s e t}, I s → C s e → m.step s e = some t → I t)
    (start : I s) (h : m.run s es = some t) (meets : m.Meets C s es) : I t := by
  induction es using List.reverseRecOn generalizing t with
  | nil => exact Option.some.inj h ▸ start
  | append_singleton es e ih =>
    obtain ⟨u, before, last⟩ := run_concat.mp h
    exact keep (ih before (meets.of_prefix (List.prefix_append _ _))) (meets.last before) last

/-- When leaving `P` is what a step that does not meet `C` does, `P` holds all along a run exactly when the run meets
`C`. -/
theorem forall_prefix_iff {I P : S → Prop} (within : ∀ {s}, I s → P s)
    (keep : ∀ {s e t}, I s → m.step s e = some t → (P t → C s e) ∧ (C s e → I t)) (start : I s)
    (h : m.run s es = some t) : (∀ fs u, fs <+: es → m.run s fs = some u → P u) ↔ m.Meets C s es := by
  constructor
  · intro along
    suffices all : m.Meets C s es ∧ I t from all.1
    induction es using List.reverseRecOn generalizing t with
    | nil => exact ⟨meets_nil, Option.some.inj h ▸ start⟩
    | append_singleton es e ih =>
      obtain ⟨u, before, last⟩ := run_concat.mp h
      obtain ⟨earlier, inside⟩ := ih before fun fs v initial => along fs v (initial.trans (List.prefix_append _ _))
      obtain ⟨needs, keeps⟩ := keep inside last
      have here := needs (along _ t List.prefix_rfl h)
      exact ⟨(meets_concat_iff before).mpr ⟨earlier, here⟩, keeps here⟩
  · intro meets fs u initial reached
    refine within (run_invariant_of_meets ?_ start reached (meets.of_prefix initial))
    exact fun inside here next => (keep inside next).2 here

theorem Meets.with_invariant {I : S → Prop} (meets : m.Meets C s es)
    (keep : ∀ {s e t}, I s → C s e → m.step s e = some t → I t) (start : I s) :
    m.Meets (fun t e => I t ∧ C t e) s es :=
  fun fs e t initial h => ⟨run_invariant_of_meets keep start h
    (meets.of_prefix ((List.prefix_append fs [e]).trans initial)), meets fs e t initial h⟩

/-! ### Simulation -/

/-- What another machine does for the events of a run, `f` saying what it does for one of them. -/
def translate {F : Type*} (m : Machine S E) (f : S → E → List F) (s : S) : List E → List F
  | [] => []
  | e :: es => f s e ++ match m.step s e with
    | some t => m.translate f t es
    | none => []

/-- A machine that can follow every step can follow every run. -/
theorem run_translate {T F : Type*} {n : Machine T F} {f : S → E → List F} {R : S → T → Prop} {u : T}
    (follow : ∀ {s e t u}, R s u → m.step s e = some t → ∃ v, n.run u (f s e) = some v ∧ R t v) (start : R s u)
    (h : m.run s es = some t) : ∃ v, n.run u (m.translate f s es) = some v ∧ R t v := by
  induction es generalizing s u with
  | nil => exact ⟨u, rfl, Option.some.inj h ▸ start⟩
  | cons e es ih =>
    obtain ⟨s', first, later⟩ := run_cons.mp h
    obtain ⟨u', followed, inside⟩ := follow start first
    obtain ⟨v, run, related⟩ := ih inside later
    refine ⟨v, ?_, related⟩
    rw [translate, first]
    exact run_append_some.mpr ⟨u', followed, run⟩

/-! ### Checking a given run -/

theorem meets_cons : m.Meets C s (e :: es) ↔ C s e ∧ ∀ t, m.step s e = some t → m.Meets C t es := by
  constructor
  · intro meets
    refine ⟨meets [] e s (by simp) rfl, fun t first fs f u initial h => ?_⟩
    exact meets (e :: fs) f u (List.cons_prefix_cons.mpr ⟨rfl, initial⟩) (run_cons.mpr ⟨t, first, h⟩)
  · rintro ⟨here, later⟩ fs f u initial h
    cases fs with
    | nil =>
      obtain ⟨rfl, _⟩ := List.cons_prefix_cons.mp initial
      exact Option.some.inj h ▸ here
    | cons g fs =>
      obtain ⟨rfl, rest⟩ := List.cons_prefix_cons.mp initial
      obtain ⟨t, first, reached⟩ := run_cons.mp h
      exact later t first fs f u rest reached

theorem meets_cons_of (h : m.step s e = some t) : m.Meets C s (e :: es) ↔ C s e ∧ m.Meets C t es := by
  simp [meets_cons, h]

instance decidableMeets [∀ s e, Decidable (C s e)] : ∀ s es, Decidable (m.Meets C s es)
  | _, [] => isTrue meets_nil
  | s, e :: es =>
    have : ∀ t, Decidable (m.Meets C t es) := fun t => decidableMeets t es
    match next : m.step s e with
    | none => decidable_of_iff (C s e) (by simp [meets_cons, next])
    | some t => decidable_of_iff (C s e ∧ m.Meets C t es) (by simp [meets_cons, next])

end Machine

import Mathlib.Order.Monotone.Basic
import CoUsb.Lib.Machine

/-!
# Rankings

A natural number that no step raises and that certain steps lower bounds how many of these there are in a run.
-/

namespace Machine

variable {S E : Type*} {m : Machine S E} {I : S → Prop} {C : S → E → Prop} {lowers : E → Bool} {rank : S → Nat}
  {s t : S} {es : List E}

/-- As long as the steps meet `C`, each keeps `I`, none raises `rank` and those of the events `lowers` lower it. -/
structure Ranking (m : Machine S E) (I : S → Prop) (C : S → E → Prop) (lowers : E → Bool) (rank : S → Nat) : Prop where
  keep : ∀ {s e t}, I s → C s e → m.step s e = some t → I t
  falls : ∀ {s e t}, I s → C s e → m.step s e = some t → rank t + (lowers e).toNat ≤ rank s

theorem Ranking.bounds (ranking : Ranking m I C lowers rank) (start : I s) (h : m.run s es = some t)
    (meets : m.Meets C s es) : es.countP lowers + rank t ≤ rank s := by
  induction es using List.reverseRecOn generalizing t with
  | nil =>
    obtain rfl := Option.some.inj h
    exact (Nat.zero_add _).le
  | append_singleton es e ih =>
    obtain ⟨u, before, last⟩ := run_concat.mp h
    have earlier := meets.of_prefix (List.prefix_append es [e])
    have kept := run_invariant_of_meets ranking.keep start before earlier
    have falls := ranking.falls kept (meets.last before) last
    have bound := ih before earlier
    have one : [e].countP lowers = (lowers e).toNat := by
      cases lower : lowers e <;> simp [lower]
    rw [List.countP_append, one]
    omega

/-- The steps of a run that does not end. -/
structure Endless (m : Machine S E) (C : S → E → Prop) (states : Nat → S) (events : Nat → E) : Prop where
  meets : ∀ n, C (states n) (events n)
  step : ∀ n, m.step (states n) (events n) = some (states (n + 1))

theorem Ranking.eventually (ranking : Ranking m I C lowers rank) {states : Nat → S} {events : Nat → E}
    (endless : Endless m C states events) (start : I (states 0)) :
    ∃ n, ∀ k, n ≤ k → lowers (events k) = false := by
  have kept : ∀ n, I (states n) := by
    intro n
    induction n with
    | zero => exact start
    | succ n ih => exact ranking.keep ih (endless.meets n) (endless.step n)
  have falls := fun n => ranking.falls (kept n) (endless.meets n) (endless.step n)
  have never : Antitone fun n => rank (states n) :=
    antitone_nat_of_succ_le fun n => (Nat.le_add_right _ _).trans (falls n)
  suffices ∀ r n, rank (states n) < r → ∃ n, ∀ k, n ≤ k → lowers (events k) = false from this _ 0 (Nat.lt_succ_self _)
  intro r
  induction r with
  | zero => exact fun n below => absurd below (Nat.not_lt_zero _)
  | succ r ih =>
    intro n below
    by_cases quiet : ∀ k, n ≤ k → lowers (events k) = false
    · exact ⟨n, quiet⟩
    · simp only [not_forall, Bool.not_eq_false] at quiet
      obtain ⟨k, later, lower⟩ := quiet
      have fall : rank (states (k + 1)) + 1 ≤ rank (states k) := by simpa [lower] using falls k
      have before : rank (states k) ≤ rank (states n) := never later
      exact ih (k + 1) (by omega)

/-! ### Events that come to an end -/

/-- However the events `own` are taken from `s`, there are at most `n` of them, and none is left only when `final`. -/
def EndsWithin (m : Machine S E) (own : E → Bool) (final : S → Prop) (n : Nat) (s : S) : Prop :=
  ∀ es t, (∀ e ∈ es, own e = true) → m.run s es = some t →
    es.length ≤ n ∧ (final t ∨ ∃ e u, own e = true ∧ m.step t e = some u)

variable {own : E → Bool} {final : S → Prop} {n : Nat}

theorem Ranking.endsWithin (ranking : Ranking m I (fun _ e => own e = true) (fun _ => true) rank)
    (goes : ∀ {t}, I t → final t ∨ ∃ e u, own e = true ∧ m.step t e = some u) (start : I s) (bound : rank s ≤ n) :
    EndsWithin m own final n s := by
  intro es t all run
  have meets : m.Meets (fun _ e => own e = true) s es := meets_of_forall fun e member _ => all e member
  have counted := ranking.bounds start run meets
  refine ⟨?_, goes (run_invariant_of_meets ranking.keep start run meets)⟩
  rw [List.countP_true] at counted
  omega

end Machine

import CoUsb.Transfer.CompleteSequenceAwaitable
import CoUsb.Transfer.InFlight
import CoUsb.Transfer.SequenceAwaitable

/-!
# Cancellation

The cancel loop of the stop callback reaches every transfer in flight as long as no
submission succeeds behind it. The submission loop and the callbacks do not look at the
stop token, so nothing keeps them from submitting there.
-/

namespace CoUsb.Transfer

variable {σ : Type} {P : Pump σ} {q : Request} {s s' u : State σ} {e : Event} {es : List Event} {t k : Nat}

/-- The cancel loop has been at transfer `t`. -/
def Stop.passed : Stop → Nat → Prop
  | .idle, _ => False
  | .cancelling i, t => t < i
  | .finished, _ => True

/-- Every transfer in flight was cancelled since its latest submission. -/
def AllCancelled (s : State σ) : Prop := ∀ t c, s.flight t = .inFlight c → c = true

/-- The transfers in flight that the cancel loop has passed are cancelled. -/
structure Swept (q : Request) (s : State σ) : Prop where
  bound : ∀ i, s.stop = .cancelling i → i ≤ q.used
  cancelled : ∀ t c, s.flight t = .inFlight c → s.stop.passed t → c = true

/-- A step that submits a transfer does so before the cancel loop has passed it, or in vain. -/
def SubmitsAhead (P : Pump σ) (s : State σ) : Event → Prop
  | .submit r => ∀ i, s.suspend = .submitting i → s.stop.passed i → r ≠ 0
  | .proceed r => ∀ t fresh tfer, s.callback = .entered t →
      (P.process s.pump t (s.tfers t)).2 = .submit fresh tfer → s.stop.passed t → r ≠ 0
  | _ => True

theorem Swept.of_frame (swept : Swept q s) (stop : s'.stop = s.stop)
    (flight : ∀ t c, s'.flight t = .inFlight c → s.flight t = .inFlight c) : Swept q s' :=
  ⟨by rw [stop]; exact swept.bound, fun t c h => by rw [stop]; exact swept.cancelled t c (flight t c h)⟩

theorem Swept.launch {i : Nat} (swept : Swept q s) (stop : s'.stop = s.stop) (ahead : ¬ s.stop.passed i)
    (flight : s'.flight = Function.update s.flight i (.inFlight false)) : Swept q s' := by
  refine ⟨by rw [stop]; exact swept.bound, fun t c h passed => ?_⟩
  rw [stop] at passed
  rw [flight] at h
  by_cases same : t = i
  · exact absurd (same ▸ passed) ahead
  · rw [Function.update_of_ne same] at h
    exact swept.cancelled t c h passed

theorem swept_cancel {i : Nat} (swept : Swept q s) (cancelling : s.stop = .cancelling i) (more : i ≠ q.used) :
    Swept q
      { s with
        flight := Function.update s.flight i (s.flight i).cancel
        stop := .cancelling (i + 1)
        log := s.log ++ [.cancel i] } := by
  have bound := swept.bound i cancelling
  refine ⟨fun j h => ?_, fun t c h passed => ?_⟩
  · obtain rfl := Stop.cancelling.inj h
    omega
  · dsimp only at h
    simp only [Stop.passed] at passed
    by_cases same : t = i
    · subst t
      rw [Function.update_self] at h
      cases flying : s.flight i with
      | inFlight d => rw [flying] at h; exact (Flight.inFlight.inj h).symm
      | idle | completed => rw [flying] at h; cases h
    · rw [Function.update_of_ne same] at h
      exact swept.cancelled t c h (by rw [cancelling]; exact (by omega : t < i))

theorem swept_step (counted : Counted q s) (swept : Swept q s) (ahead : SubmitsAhead P s e)
    (step : Step P q s e s') : Swept q s' := by
  cases step with
  | filled at_start =>
    exact swept.of_frame (by simp) fun _ _ h => by simpa using h
  | submitOk i at_loop => exact swept.launch rfl (fun passed => ahead i at_loop passed rfl) rfl
  | resubmitOk t pump fresh tfer entered exit =>
    exact swept.launch rfl (fun passed => ahead t fresh tfer entered (by rw [exit]) passed rfl) rfl
  | complete | enter => exact swept.of_frame rfl fun _ _ => of_update (by simp)
  | drain => exact swept.of_frame (by simp) fun _ _ h => of_update (by simp) (resumeOnZero_flight _ ▸ h)
  | proceedResume | storeFailure => exact swept.of_frame (by simp) (by simp)
  | requestStop =>
    exact ⟨fun i h => Stop.cancelling.inj h ▸ Nat.zero_le _, fun t _ _ passed => absurd passed (Nat.not_lt_zero t)⟩
  | cancel i cancelling more => exact swept_cancel swept cancelling more
  | finishStop at_end =>
    refine ⟨by simp, fun t c h _ => swept.cancelled t c h ?_⟩
    rw [at_end]
    exact counted.lt_used (counted.flying t (by rw [h]; simp))
  | ready | stopped | submitFail | recordFailure | leaveLoop | proceedFail | resubmitFail | resume =>
    exact swept.of_frame rfl fun _ _ h => h

theorem swept_run (h : (machine P q).run (initial P q) es = some s)
    (ahead : (machine P q).Meets (SubmitsAhead P) (initial P q) es) : Swept q s := by
  have kept : Counted q s ∧ Swept q s := by
    refine Machine.run_invariant_of_meets (I := fun s => Counted q s ∧ Swept q s) ?_
      ⟨counted_initial P q, by simp [initial], by simp [initial]⟩ h ahead
    rintro s e s' ⟨counted, swept⟩ ahead step
    exact ⟨counted_step counted (step_cases step), swept_step counted swept ahead (step_cases step)⟩
  exact kept.2

theorem stop_bound_step (step : Step P q s e s') (bound : ∀ i, s.stop = .cancelling i → i ≤ q.used) :
    ∀ i, s'.stop = .cancelling i → i ≤ q.used := by
  intro j h
  cases step with
  | filled at_start =>
    exact bound j (by simpa using h)
  | drain | proceedResume | storeFailure => exact bound j (by simpa using h)
  | requestStop => exact Stop.cancelling.inj h ▸ Nat.zero_le _
  | cancel i cancelling more =>
    have le := bound i cancelling
    obtain rfl := Stop.cancelling.inj h
    omega
  | finishStop => cases h
  | _ => exact bound j h

theorem stop_bound_run (h : (machine P q).run (initial P q) es = some s) :
    ∀ i, s.stop = .cancelling i → i ≤ q.used :=
  Machine.run_invariant (I := fun s => ∀ i, s.stop = .cancelling i → i ≤ q.used)
    (fun bound step => stop_bound_step (step_cases step) bound) (by simp [initial]) h

/-- A step of the stop callback. -/
def Event.ofStop : Event → Bool
  | .cancel | .finishStop => true
  | _ => false

/-- The stop callback can always run to its end, and touches no transfer it has passed. -/
theorem stop_finishes (P : Pump σ) (s : State σ) (k : Nat) (cancelling : s.stop = .cancelling k) (bound : k ≤ q.used) :
    ∃ fs u, (∀ f ∈ fs, Event.ofStop f = true) ∧ (machine P q).run s fs = some u ∧ u.stop = .finished ∧
      ∀ t, t < k → u.flight t = s.flight t := by
  obtain ⟨left, rfl⟩ : ∃ left, k = q.used - left := ⟨q.used - k, by omega⟩
  induction left generalizing s with
  | zero =>
    refine ⟨[.finishStop], { s with stop := .finished }, by simp [Event.ofStop], ?_, rfl, fun _ _ => rfl⟩
    simp [Machine.run_cons, machine, step, cancelling]
  | succ left ih =>
    by_cases done : q.used - (left + 1) = q.used - left
    · rw [done] at cancelling ⊢
      exact ih s cancelling (by omega)
    · let next : State σ :=
        { s with
          flight := Function.update s.flight (q.used - (left + 1)) (s.flight (q.used - (left + 1))).cancel
          stop := .cancelling (q.used - left)
          log := s.log ++ [.cancel (q.used - (left + 1))] }
      obtain ⟨fs, u, only, run, finished, kept⟩ := ih next rfl (by omega)
      have after : q.used - (left + 1) + 1 = q.used - left := by omega
      refine ⟨.cancel :: fs, u, by simpa [Event.ofStop] using only, ?_, finished, fun t less => ?_⟩
      · refine Machine.run_cons.mpr ⟨next, ?_, run⟩
        have more : ¬ q.used - (left + 1) = q.used := by omega
        simp [machine, step, cancelling, more, after, next]
      · rw [kept t (by omega)]
        exact Function.update_of_ne (by omega) _ _

/-- A submission behind the cancel loop leaves its transfer in flight and not cancelled. -/
theorem behind_step (behind : ¬ SubmitsAhead P s e) (step : Step P q s e s') :
    ∃ t, s'.stop.passed t ∧ s'.flight t = .inFlight false := by
  cases step with
  | submitOk i at_loop =>
    refine ⟨i, ?_, Function.update_self ..⟩
    by_contra ahead
    exact behind fun j here passed => absurd (Suspend.submitting.inj (at_loop.symm.trans here) ▸ passed) ahead
  | resubmitOk t pump fresh tfer entered =>
    refine ⟨t, ?_, Function.update_self ..⟩
    by_contra ahead
    exact behind fun j _ _ here _ passed => absurd (Callback.entered.inj (entered.symm.trans here) ▸ passed) ahead
  | submitFail i r _ _ failed => exact absurd (fun _ _ _ => failed) behind
  | resubmitFail t r pump fresh tfer entered failed => exact absurd (fun _ _ _ _ _ _ => failed) behind
  | proceedResume t r pump entered exit | proceedFail t r pump ec entered exit =>
    refine absurd (fun u fresh tfer here next _ => ?_) behind
    obtain rfl := Callback.entered.inj (entered.symm.trans here)
    rw [exit] at next
    cases next
  | _ => exact absurd trivial behind

theorem exists_uncancelled (h : (machine P q).run (initial P q) es = some s) (passed : s.stop.passed t)
    (flying : s.flight t = .inFlight false) :
    ∃ fs u, (∀ f ∈ fs, Event.ofStop f = true) ∧ (machine P q).run s fs = some u ∧ u.stop = .finished ∧
      u.flight t = .inFlight false := by
  cases stop : s.stop with
  | idle => rw [stop] at passed; exact passed.elim
  | cancelling k =>
    rw [stop] at passed
    obtain ⟨fs, u, only, run, finished, kept⟩ := stop_finishes P s k stop (stop_bound_run h k stop)
    exact ⟨fs, u, only, run, finished, (kept t passed).trans flying⟩
  | finished => exact ⟨[], s, by simp, rfl, stop, flying⟩

/-- Steps of the stop callback submit nothing. -/
theorem ahead_of_stop (only : Event.ofStop e = true) : SubmitsAhead P s e := by
  cases e <;> simp_all [Event.ofStop, SubmitsAhead]

theorem meets_of_stop {fs : List Event} (meets : (machine P q).Meets (SubmitsAhead P) s es)
    (only : ∀ f ∈ fs, Event.ofStop f = true) : (machine P q).Meets (SubmitsAhead P) s (es ++ fs) := by
  induction fs using List.reverseRecOn with
  | nil => simpa using meets
  | append_singleton fs f ih =>
    rw [← List.append_assoc]
    exact Machine.meets_concat (ih fun g member => only g (List.mem_append_left _ member))
      fun _ _ => ahead_of_stop (only f (by simp))

/-- Wherever along a run the stop callback finishes, it has cancelled every transfer in
flight, exactly when no submission of the run succeeds behind its cancel loop. -/
theorem all_cancelled_iff (h : (machine P q).run (initial P q) es = some s) :
    (∀ es₁ fs u, es₁ <+: es → (∀ f ∈ fs, Event.ofStop f = true) →
      (machine P q).run (initial P q) (es₁ ++ fs) = some u → u.stop = .finished → AllCancelled u) ↔
    (machine P q).Meets (SubmitsAhead P) (initial P q) es := by
  constructor
  · intro all
    by_contra behind
    obtain ⟨es₁, e, rest, u, w, rfl, before, broken, step, _⟩ := Machine.exists_of_not_meets h behind
    have reached : (machine P q).run (initial P q) (es₁ ++ [e]) = some w := Machine.run_concat.mpr ⟨u, before, step⟩
    obtain ⟨t, passed, flying⟩ := behind_step broken (step_cases step)
    obtain ⟨fs, x, only, run, finished, left⟩ := exists_uncancelled reached passed flying
    have cancelled := all (es₁ ++ [e]) fs x ⟨rest, by simp⟩ only
      (Machine.run_append_some.mpr ⟨w, reached, run⟩) finished
    exact absurd (cancelled t false left) (by simp)
  · intro ahead es₁ fs u initial only run finished t c flying
    have swept := swept_run run (meets_of_stop (ahead.of_prefix initial) only)
    exact swept.cancelled t c flying (by rw [finished]; trivial)

/-- For both awaitables: wherever along a run the stop callback finishes, every transfer in
flight is cancelled, exactly when no submission of the run succeeds behind its cancel loop. -/
theorem cancellation_reaches_every_transfer_iff (q : Request) (limit : Nat) (es : List Event) :
    (∀ s, (machine (sequenceAwaitable q) q).run (initial (sequenceAwaitable q) q) es = some s →
      ((∀ es₁ fs u, es₁ <+: es → (∀ f ∈ fs, Event.ofStop f = true) →
        (machine (sequenceAwaitable q) q).run (initial (sequenceAwaitable q) q) (es₁ ++ fs) = some u →
        u.stop = .finished → AllCancelled u) ↔
      (machine (sequenceAwaitable q) q).Meets (SubmitsAhead (sequenceAwaitable q))
        (initial (sequenceAwaitable q) q) es)) ∧
    (∀ s, (machine (completeSequenceAwaitable q limit) q).run (initial (completeSequenceAwaitable q limit) q) es =
        some s →
      ((∀ es₁ fs u, es₁ <+: es → (∀ f ∈ fs, Event.ofStop f = true) →
        (machine (completeSequenceAwaitable q limit) q).run (initial (completeSequenceAwaitable q limit) q)
          (es₁ ++ fs) = some u → u.stop = .finished → AllCancelled u) ↔
      (machine (completeSequenceAwaitable q limit) q).Meets (SubmitsAhead (completeSequenceAwaitable q limit))
        (initial (completeSequenceAwaitable q limit) q) es)) :=
  ⟨fun _ h => all_cancelled_iff h, fun _ h => all_cancelled_iff h⟩

/-- The stop callback runs between the test of the stop token and the first submission. -/
def stopBeforeSubmit : List Event := [.suspend, .requestStop, .cancel, .finishStop, .submit 0, .leaveLoop]

/-- The stop is requested while the transfer is in flight. -/
def stopInFlight : List Event := [.suspend, .submit 0, .leaveLoop, .requestStop]

theorem stopInFlight_ahead (P : Pump σ) :
    (machine P oneBulk).Meets (SubmitsAhead P) (initial P oneBulk) stopInFlight := by
  refine Machine.meets_cons.mpr ⟨trivial, fun t step => Machine.meets_cons.mpr ⟨?_, fun u _ => ?_⟩⟩
  · obtain rfl := Option.some.inj step
    have idle : (awaitSuspend P oneBulk (initial P oneBulk)).stop = .idle := by
      unfold awaitSuspend
      split <;> simp [initial]
    intro i _ passed
    rw [idle] at passed
    exact False.elim passed
  · exact Machine.meets_of_forall (by simp [SubmitsAhead])

theorem cancellation_reaches_every_transfer_iff_one_bulk :
    (∃ s, (machine (sequenceAwaitable oneBulk) oneBulk).run (initial (sequenceAwaitable oneBulk) oneBulk)
      (stopInFlight ++ [.cancel, .finishStop]) = some s ∧ AllCancelled s) ∧
    (∃ s, (machine (completeSequenceAwaitable oneBulk 4) oneBulk).run
      (initial (completeSequenceAwaitable oneBulk 4) oneBulk)
      (stopInFlight ++ [.cancel, .finishStop]) = some s ∧ AllCancelled s) ∧
    ¬ (machine (sequenceAwaitable oneBulk) oneBulk).Meets (SubmitsAhead (sequenceAwaitable oneBulk))
        (initial (sequenceAwaitable oneBulk) oneBulk) stopBeforeSubmit ∧
    ¬ (machine (completeSequenceAwaitable oneBulk 4) oneBulk).Meets
        (SubmitsAhead (completeSequenceAwaitable oneBulk 4))
        (initial (completeSequenceAwaitable oneBulk 4) oneBulk) stopBeforeSubmit := by
  have calm := cancellation_reaches_every_transfer_iff oneBulk 4 stopInFlight
  have both := cancellation_reaches_every_transfer_iff oneBulk 4 stopBeforeSubmit
  refine ⟨⟨_, rfl, ?_⟩, ⟨_, rfl, ?_⟩, fun ahead => ?_, fun ahead => ?_⟩
  · exact (calm.1 _ rfl).mpr (stopInFlight_ahead _) stopInFlight [.cancel, .finishStop] _ List.prefix_rfl (by decide)
      rfl rfl
  · exact (calm.2 _ rfl).mpr (stopInFlight_ahead _) stopInFlight [.cancel, .finishStop] _ List.prefix_rfl (by decide)
      rfl rfl
  · have all := (both.1 _ rfl).mpr ahead stopBeforeSubmit [] _ List.prefix_rfl (by simp) rfl rfl
    exact absurd (all 0 false rfl) (by decide)
  · have all := (both.2 _ rfl).mpr ahead stopBeforeSubmit [] _ List.prefix_rfl (by simp) rfl rfl
    exact absurd (all 0 false rfl) (by decide)

/-- The transfer is submitted after the stop and left in flight. -/
theorem submission_after_stop_is_not_cancelled :
    (∃ s, (machine (sequenceAwaitable oneBulk) oneBulk).run (initial (sequenceAwaitable oneBulk) oneBulk)
      stopBeforeSubmit = some s ∧ s.stop = .finished ∧ ¬ AllCancelled s) ∧
    (∃ s, (machine (completeSequenceAwaitable oneBulk 4) oneBulk).run
      (initial (completeSequenceAwaitable oneBulk 4) oneBulk) stopBeforeSubmit = some s ∧ s.stop = .finished ∧
      ¬ AllCancelled s) :=
  ⟨⟨_, rfl, rfl, fun all => absurd (all 0 false rfl) (by decide)⟩,
    ⟨_, rfl, rfl, fun all => absurd (all 0 false rfl) (by decide)⟩⟩

end CoUsb.Transfer

import CoUsb.Transfer.Termination

/-!
# After the first error

From the first error on an operation only takes back what is in flight: its callbacks submit nothing and count nothing,
and the last of them posts the continuation.
-/

namespace CoUsb.Transfer

variable {σ : Type} {P : Pump σ} {q : Request} {s s' : State σ} {e : Event} {fs : List Event}

/-- The next callback finds an error stored. -/
structure Draining (s : State σ) : Prop where
  started : s.started = true
  free : s.callback = .idle
  failed : s.ec.isError = true

/-- What the steps `fs` do after an error. -/
structure Drained (q : Request) (fs : List Event) (s s' : State σ) : Prop where
  /-- Each callback takes one transfer back. -/
  callbacks : fs.countP Event.isCallback + s'.inFlight = s.inFlight
  posted : s'.posted = 1 ↔ 0 < q.used ∧ fs.countP Event.isCallback = s.inFlight
  /-- Only the submission loop still submits. -/
  submissions : ∃ more, submissions s'.log = submissions s.log ++ more ∧
    ∀ a ∈ more, ∃ t tfer r, a = .submit .loop t tfer r
  /-- The count that is returned is fixed. -/
  pump : s'.pump = s.pump
  /-- Only a failure of the submission loop takes the place of the error. -/
  ec : s'.ec = s.ec ∨ ∃ r, r ≠ 0 ∧ .recordFailure ∈ fs ∧ s'.ec = makeTransferStatus r

theorem Draining.posted_iff (draining : Draining s) (counted : Counted q s) :
    s.posted = 1 ↔ 0 < q.used ∧ s.inFlight = 0 := by
  have woken := (counted.exact draining.started).woken_iff
  simpa only [countdown, State.running_free draining.free, Nat.add_zero, and_comm] using woken

theorem drained_nil (counted : Counted q s) (draining : Draining s) : Drained q [] s s :=
  ⟨Nat.zero_add _, (draining.posted_iff counted).trans (and_congr_right' eq_comm), ⟨[], by simp⟩, rfl, .inl rfl⟩

/-! ### One step -/

theorem draining_step (counted : Counted q s) (draining : Draining s) (step : Step P q s e s') :
    Draining s' := by
  obtain ⟨started, free, failed⟩ := draining
  cases step with
  | ready at_start | stopped at_start | filled at_start => simp [State.started, at_start] at started
  | submitOk | submitFail | leaveLoop => exact ⟨rfl, free, failed⟩
  | recordFailure i r at_loop =>
    exact ⟨rfl, free, (isError_makeTransferStatus r).mpr (counted.refused at_loop).2.2⟩
  | complete | requestStop | cancel | finishStop | resume => exact ⟨started, free, failed⟩
  | drain => exact ⟨(started_congr (by simp)).trans started, by simpa using free, by simpa using failed⟩
  | enter t _ _ fine => cases failed.symm.trans fine
  | proceedResume t r pump entered | proceedFail t r pump ec entered | resubmitOk t pump fresh tfer entered
  | resubmitFail t r pump fresh tfer entered => cases entered.symm.trans free
  | storeFailure t ec failing => cases failing.symm.trans free

theorem inFlight_step (counted : Counted q s) (draining : Draining s) (step : Step P q s e s') :
    e.isCallback.toNat + s'.inFlight = s.inFlight := by
  obtain ⟨started, free, failed⟩ := draining
  cases step with
  | ready at_start | stopped at_start | filled at_start => simp [State.started, at_start] at started
  | drain t _ landed | enter t _ landed =>
    have less := counted.sub_one (by simp [landed] : s.flight t ≠ .idle)
    simp only [resumeOnZero_inFlight, Event.isCallback, Bool.toNat_true]
    omega
  | proceedResume t r pump entered | proceedFail t r pump ec entered | resubmitOk t pump fresh tfer entered
  | resubmitFail t r pump fresh tfer entered => cases entered.symm.trans free
  | storeFailure t ec failing => cases failing.symm.trans free
  | _ => exact Nat.zero_add _

theorem made_draining (draining : Draining s) (step : Step P q s e s') :
    ∀ a ∈ made P s e, ∃ t tfer r, a = .submit .loop t tfer r := by
  cases step with
  | submitOk i at_loop | submitFail i r at_loop => simp [made, at_loop]
  | proceedResume t r pump entered | proceedFail t r pump ec entered | resubmitOk t pump fresh tfer entered
  | resubmitFail t r pump fresh tfer entered => cases entered.symm.trans draining.free
  | _ => simp [made]

theorem pump_draining (draining : Draining s) (step : Step P q s e s') : s'.pump = s.pump := by
  obtain ⟨started, free, _⟩ := draining
  cases step with
  | filled at_start => simp [State.started, at_start] at started
  | drain => simp
  | proceedResume t r pump entered | proceedFail t r pump ec entered | resubmitOk t pump fresh tfer entered
  | resubmitFail t r pump fresh tfer entered => cases entered.symm.trans free
  | storeFailure t ec failing => cases failing.symm.trans free
  | _ => rfl

theorem error_step (counted : Counted q s) (draining : Draining s) (step : Step P q s e s') :
    s'.ec = s.ec ∨ ∃ r, r ≠ 0 ∧ e = .recordFailure ∧ s'.ec = makeTransferStatus r := by
  obtain ⟨started, free, _⟩ := draining
  cases step with
  | stopped at_start | filled at_start => simp [State.started, at_start] at started
  | recordFailure i r at_loop => exact .inr ⟨r, (counted.refused at_loop).2.2, rfl, rfl⟩
  | drain => exact .inl (by simp)
  | proceedResume t r pump entered | resubmitOk t pump fresh tfer entered => cases entered.symm.trans free
  | storeFailure t ec failing => cases failing.symm.trans free
  | _ => exact .inl rfl

theorem Drained.concat {u : State σ} (drained : Drained q fs s u) (counted : Counted q u) (draining : Draining u)
    (step : Step P q u e s') : Drained q (fs ++ [e]) s s' := by
  have after := (draining_step counted draining step).posted_iff (counted_step counted step)
  have taken := inFlight_step counted draining step
  have one : [e].countP Event.isCallback = e.isCallback.toNat := by
    cases callback : e.isCallback <;> simp [callback]
  obtain ⟨callbacks, _, ⟨more, submissions, shape⟩, pump, ec⟩ := drained
  refine ⟨?_, ?_, ⟨more ++ made P u e, ?_, ?_⟩, (pump_draining draining step).trans pump, ?_⟩
  · rw [List.countP_append, one]
    omega
  · rw [List.countP_append, one, after]
    omega
  · rw [submissions_step step, submissions, List.append_assoc]
  · intro a member
    exact (List.mem_append.mp member).elim (shape a) (made_draining draining step a)
  · rcases error_step counted draining step with same | ⟨r, failed, rfl, stored⟩
    · rw [same]
      exact ec.imp_right fun ⟨r, failed, member, stored⟩ => ⟨r, failed, List.mem_append_left _ member, stored⟩
    · exact .inr ⟨r, failed, by simp, stored⟩

/-! ### Runs -/

theorem drained_run (counted : Counted q s) (draining : Draining s) (h : (machine P q).run s fs = some s') :
    Counted q s' ∧ Draining s' ∧ Drained q fs s s' := by
  induction fs using List.reverseRecOn generalizing s' with
  | nil =>
    obtain rfl := Option.some.inj h
    exact ⟨counted, draining, drained_nil counted draining⟩
  | append_singleton fs e ih =>
    obtain ⟨u, before, last⟩ := Machine.run_concat.mp h
    obtain ⟨counted, draining, drained⟩ := ih before
    have step := step_cases last
    exact ⟨counted_step counted step, draining_step counted draining step, drained.concat counted draining step⟩

/-- A state of either operation with an error stored, outside its callbacks, is only drained from there on. -/
theorem drains_after_an_error (q : Request) (limit : Nat) (es fs : List Event) :
    (∀ s s', (machine (sequenceAwaitable q) q).run (initial (sequenceAwaitable q) q) es = some s → Draining s →
      (machine (sequenceAwaitable q) q).run s fs = some s' → Drained q fs s s') ∧
    (∀ s s', (machine (completeSequenceAwaitable q limit) q).run (initial (completeSequenceAwaitable q limit) q) es =
      some s → Draining s → (machine (completeSequenceAwaitable q limit) q).run s fs = some s' → Drained q fs s s') :=
  ⟨fun _ _ before draining after => (drained_run (counted_run before) draining after).2.2,
    fun _ _ before draining after => (drained_run (counted_run before) draining after).2.2⟩

/-- One transfer fails with the other in flight. -/
def oneFailed : List Event :=
  [.suspend, .submit 0, .submit 0, .leaveLoop, .complete 0 ⟨.error, 2, []⟩, .callback 0, .proceed 0, .storeFailure]

theorem drains_after_an_error_two_bulk :
    (∃ s s', (machine (sequenceAwaitable twoBulk) twoBulk).run (initial (sequenceAwaitable twoBulk) twoBulk) oneFailed =
      some s ∧ s'.posted = 1 ∧ Drained twoBulk [.complete 1 ⟨.completed, 4, []⟩, .callback 1] s s') ∧
    (∃ s s', (machine (completeSequenceAwaitable twoBulk 4) twoBulk).run
      (initial (completeSequenceAwaitable twoBulk 4) twoBulk) oneFailed = some s ∧ s'.posted = 1 ∧
      Drained twoBulk [.complete 1 ⟨.completed, 4, []⟩, .callback 1] s s') :=
  have drains := drains_after_an_error twoBulk 4 oneFailed [.complete 1 ⟨.completed, 4, []⟩, .callback 1]
  ⟨⟨_, _, rfl, rfl, drains.1 _ _ rfl ⟨rfl, rfl, rfl⟩ rfl⟩, ⟨_, _, rfl, rfl, drains.2 _ _ rfl ⟨rfl, rfl, rfl⟩ rfl⟩⟩

end CoUsb.Transfer

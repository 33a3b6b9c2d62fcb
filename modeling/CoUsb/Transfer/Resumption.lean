import CoUsb.Transfer.Handing
import CoUsb.Transfer.Wakeup

/-!
# What the coroutine continues with

`await_resume` reads the stored error and the count at a point from which nothing of the
operation changes them any more.
-/

namespace CoUsb.Transfer

variable {σ : Type} {P : Pump σ} {q : Request} {s s' : State σ} {e : Event} {es : List Event} {ec : ErrorCode}
  {n t : Nat}

/-- No callback runs or will run and no submission follows. -/
structure Over (q : Request) (s : State σ) : Prop where
  free : s.callback = .idle
  still : ∀ t, s.flight t = .idle
  looped : s.suspend = .submitting q.used ∨ s.suspend = .returnedNoop ∨ s.suspend = .returnedHandle ∨
    s.suspend = .notSuspended

theorem Settled.over (settled : Settled q s) : Over q s :=
  ⟨settled.free, settled.still, settled.looped.imp_right Or.inl⟩

theorem Counted.over (counted : Counted q s)
    (resumable : 0 < s.posted ∨ s.suspend = .returnedHandle ∨ s.suspend = .notSuspended) : Over q s := by
  rcases resumable with posted | direct
  · exact (counted.settled posted).over
  · have unstarted : s.started = false := by rcases direct with h | h <;> simp [State.started, h]
    obtain ⟨free, still⟩ := counted.untouched unstarted
    exact ⟨free, still, Or.inr (Or.inr direct)⟩

/-- What an operation that is over never changes again. -/
structure Kept (s s' : State σ) : Prop where
  ec : s'.ec = s.ec
  pump : s'.pump = s.pump
  posted : s'.posted = s.posted
  suspend : s'.suspend = s.suspend ∨ s.started = true ∧ s'.suspend = .returnedNoop

theorem over_step (ended : Over q s) (step : Step P q s e s') : Kept s s' := by
  obtain ⟨free, still, looped⟩ := ended
  cases step with
  | ready at_start | stopped at_start | filled at_start => simp [at_start] at looped
  | submitOk i at_loop more | submitFail i r at_loop more => simp_all
  | recordFailure i r failed => simp [failed] at looped
  | complete t c cancelled flying => exact absurd (flying.symm.trans (still t)) (by simp)
  | drain t _ completed | enter t _ completed => exact absurd (completed.symm.trans (still t)) (by simp)
  | proceedResume t r pump entered | proceedFail t r pump ec entered | resubmitOk t pump fresh tfer entered
  | resubmitFail t r pump fresh tfer entered =>
    exact absurd (entered.symm.trans free) (by simp)
  | storeFailure t ec failing => exact absurd (failing.symm.trans free) (by simp)
  | leaveLoop at_end => exact ⟨rfl, rfl, rfl, Or.inr ⟨by rw [State.started, at_end], rfl⟩⟩
  | cancel | requestStop | finishStop | resume => exact ⟨rfl, rfl, rfl, Or.inl rfl⟩

/-! ### The result of the operation -/

/-- How `await_suspend` was left, and what the coroutine was resumed with. -/
structure Returned (P : Pump σ) (s : State σ) : Prop where
  start : s.suspend = .start → s.pump = P.start
  ready : s.suspend = .notSuspended → P.ready P.start = true
  stopped : s.suspend = .returnedHandle → s.ec = makeTransferStatus TransferStatus.cancelled.code
  resumed : ∀ ec n, s.resumed = some (ec, n) → ec = s.ec ∧ n = P.total s.pump ∧
    (0 < s.posted ∨ s.suspend = .returnedHandle ∨ s.suspend = .notSuspended)

theorem Returned.of_kept (returned : Returned P s) (kept : Kept s s') (same : s'.resumed = s.resumed) :
    Returned P s' := by
  obtain ⟨ec, pump, posted, suspend⟩ := kept
  rcases suspend with suspend | ⟨started, noop⟩
  · obtain ⟨start, ready, stopped, resumed⟩ := returned
    exact ⟨by rwa [suspend, pump], by rwa [suspend], by rwa [suspend, ec], by rwa [same, ec, pump, posted, suspend]⟩
  · refine ⟨by simp [noop], by simp [noop], by simp [noop], fun ec' n h => ?_⟩
    rw [same] at h
    obtain ⟨stored, total, resumable⟩ := returned.resumed ec' n h
    refine ⟨stored.trans ec.symm, by rw [pump, total], Or.inl ?_⟩
    rcases resumable with first | direct
    · rwa [posted]
    · rcases direct with h | h <;> simp [State.started, h] at started

theorem returned_started (counted : Counted q s) (returned : Returned P s) (step : Step P q s e s')
    (started : s'.started = true) (same : s'.resumed = s.resumed) : Returned P s' := by
  cases pending : s.resumed with
  | none =>
    refine ⟨fun h => ?_, fun h => ?_, fun h => ?_, by simp [same, pending]⟩ <;> simp [State.started, h] at started
  | some result =>
    have resumable := (returned.resumed result.1 result.2 pending).2.2
    exact returned.of_kept (over_step (counted.over resumable) step) same

theorem returned_step (counted : Counted q s) (returned : Returned P s) (step : Step P q s e s') : Returned P s' := by
  cases id step with
  | ready at_start ready =>
    rw [returned.start at_start] at ready
    exact ⟨by simp, fun _ => ready, by simp, by simp⟩
  | stopped => exact ⟨by simp, by simp, fun _ => rfl, by simp⟩
  | filled => exact returned_started counted returned step rfl (by simp)
  | submitOk | submitFail | recordFailure | leaveLoop => exact returned_started counted returned step rfl rfl
  | drain t _ completed =>
    have started := counted.started_of_flying (by simp [completed] : s.flight t ≠ .idle)
    exact returned_started counted returned step ((started_congr (by simp)).trans started) (by simp)
  | proceedResume t _ _ entered =>
    have started := counted.started_of_busy (busy_entered entered)
    exact returned_started counted returned step ((started_congr (by simp)).trans started) (by simp)
  | storeFailure t _ failing =>
    have started := counted.started_of_busy (busy_failing failing)
    exact returned_started counted returned step ((started_congr (by simp)).trans started) (by simp)
  | proceedFail t _ _ _ entered | resubmitOk t _ _ _ entered | resubmitFail t _ _ _ _ entered =>
    exact returned_started counted returned step (counted.started_of_busy (busy_entered entered)) rfl
  | enter | complete | requestStop | cancel | finishStop =>
    exact returned.of_kept ⟨rfl, rfl, rfl, Or.inl rfl⟩ rfl
  | resume posted =>
    obtain ⟨start, ready, stopped, _⟩ := returned
    refine ⟨start, ready, stopped, fun ec n h => ?_⟩
    obtain ⟨rfl, rfl⟩ := Prod.mk.inj (Option.some.inj h)
    exact ⟨rfl, rfl, Or.inl posted⟩

theorem returned_run (h : (machine P q).run (initial P q) es = some s) : Counted q s ∧ Returned P s := by
  refine Machine.run_invariant (I := fun s => Counted q s ∧ Returned P s) ?_
    ⟨counted_initial P q, by simp [initial], by simp [initial], by simp [initial], by simp [initial]⟩ h
  rintro s e s' ⟨counted, returned⟩ step
  exact ⟨counted_step counted (step_cases step), returned_step counted returned (step_cases step)⟩

theorem resumed_with (h : (machine P q).run (initial P q) es = some s) (resumed : s.resumed = some (ec, n)) :
    ec = s.ec ∧ n = P.total s.pump ∧ Over q s := by
  obtain ⟨counted, returned⟩ := returned_run h
  obtain ⟨stored, total, resumable⟩ := returned.resumed ec n resumed
  exact ⟨stored, total, counted.over resumable⟩

/-- With a buffer to process, an empty error means that the continuation was posted. -/
theorem resumed_fine (h : (machine P q).run (initial P q) es = some s) (unready : P.ready P.start = false)
    (resumed : s.resumed = some (ec, n)) (fine : ec.isError = false) :
    s.ec.isError = false ∧ n = P.total s.pump ∧ Settled q s := by
  obtain ⟨counted, returned⟩ := returned_run h
  obtain ⟨rfl, total, resumable⟩ := returned.resumed ec n resumed
  refine ⟨fine, total, ?_⟩
  rcases resumable with posted | stopped | direct
  · exact counted.settled posted
  · rw [returned.stopped stopped] at fine
    exact absurd fine (by decide)
  · exact absurd (returned.ready direct) (by simp [unready])

/-! ### At rest without an error -/

theorem Over.clean (ended : Over q s) (fine : s.ec.isError = false) : Clean s := by
  refine ⟨fine, by simp [ended.free], fun i r failed => ?_⟩
  rcases ended.looped with h | h | h | h <;> simp [failed] at h

theorem Settled.clean (settled : Settled q s) (fine : s.ec.isError = false) : Clean s := settled.over.clean fine

theorem Settled.started (settled : Settled q s) : s.started = true := by
  rcases settled.looped with h | h <;> simp [State.started, h]

theorem Settled.closed (settled : Settled q s) (used : t < q.used) : ¬ s.isOpen t := by
  simp [State.isOpen, settled.still t, settled.launched t used]

/-- A transfer at rest without an error has seen the last buffer go. -/
theorem Settled.exhausted (settled : Settled q s) (some_transfer : 0 < q.used) {cur : σ → Nat} (busy : Busy q cur s) :
    cur s.pump = q.sizes.length := by
  apply (busy settled.started).resolve_right
  intro work
  rcases work 0 some_transfer with isOpen | running
  · exact settled.closed some_transfer isOpen
  · rw [settled.free] at running
    cases running

end CoUsb.Transfer

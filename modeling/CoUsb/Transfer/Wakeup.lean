import CoUsb.Transfer.CompleteSequenceAwaitable
import CoUsb.Transfer.History
import CoUsb.Transfer.InFlight
import CoUsb.Transfer.SequenceAwaitable

/-!
# The wakeup

The continuation is posted at most once and only when nothing is left in flight; it is
posted at all unless a submission of the first loop fails.
-/

namespace CoUsb.Transfer

variable {σ : Type} {P : Pump σ} {q : Request} {s s' : State σ} {e : Event} {es : List Event} {t : Nat}

/-! ### After the continuation was posted -/

/-- Nothing of the operation runs once its continuation is posted. -/
structure Settled (q : Request) (s : State σ) : Prop where
  free : s.callback = .idle
  inFlight : s.inFlight = 0
  still : ∀ t, s.flight t = .idle
  looped : s.suspend = .submitting q.used ∨ s.suspend = .returnedNoop
  launched : ∀ t, t < q.used → submitted s.log t = true

theorem Counted.settled (counted : Counted q s) (posted : 0 < s.posted) : Settled q s := by
  have started : s.started = true := by
    by_contra unstarted
    have := (counted.unstarted (by simpa using unstarted)).2
    omega
  have exact := counted.exact started
  have le := exact.woken_le_one
  obtain ⟨zero, some⟩ := exact.woken_iff.mp (by simp only [countdown] at le ⊢; omega)
  simp only [countdown, Nat.add_eq_zero_iff] at zero
  have free : s.callback = .idle := by
    cases busy : s.callback with
    | idle => rfl
    | entered t | failing t ec => simp [State.running, busy, Callback.transfer] at zero
  have empty : ∀ t, t < q.used → ¬ s.isOpen t := by
    intro t bound isOpen
    have pos := Finset.card_pos.mpr ⟨t, mem_unfinished.mpr ⟨bound, isOpen⟩⟩
    have count := counted.count started
    omega
  have launched : ∀ t, t < q.used → submitted s.log t = true := fun t bound => by
    simpa [State.isOpen] using fun h => empty t bound (Or.inr h)
  refine ⟨free, zero.1, ?_, ?_, launched⟩
  · intro t
    by_contra flying
    exact empty t (counted.lt_used (counted.flying t flying)) (Or.inl flying)
  · have looped := counted.looped
    unfold Looped at looped
    split at looped
    case h_1 i at_loop =>
      left
      rcases Nat.lt_or_ge i q.used with less | done
      · exact absurd ((looped.2 i).mp (launched i less)) (lt_irrefl i)
      · rw [at_loop, le_antisymm looped.1 done]
    case h_2 i r at_loop =>
      exact absurd ((looped.1.2 i).mp (launched i looped.2.1)) (lt_irrefl i)
    case h_3 at_loop => exact Or.inr at_loop
    all_goals simp_all [State.started]

theorem settled_step (settled : Settled q s) (step : Step P q s e s') :
    s'.posted = s.posted ∧ submissions s'.log = submissions s.log := by
  obtain ⟨free, _, still, looped, _⟩ := settled
  cases step with
  | submitOk i at_loop more | submitFail i r at_loop more =>
    rcases looped with at_end | returned
    · exact absurd (Suspend.submitting.inj (at_loop.symm.trans at_end)) more
    · exact absurd (at_loop.symm.trans returned) (by simp)
  | filled at_start => rcases looped with h | h <;> exact absurd (at_start.symm.trans h) (by simp)
  | drain t _ completed | enter t _ completed => exact absurd (completed.symm.trans (still t)) (by simp)
  | proceedResume t r pump entered | proceedFail t r pump ec entered | resubmitOk t pump fresh tfer entered
  | resubmitFail t r pump fresh tfer entered =>
    exact absurd (entered.symm.trans free) (by simp)
  | storeFailure t ec failing => exact absurd (failing.symm.trans free) (by simp)
  | cancel i => exact ⟨rfl, by simp [submissions, Action.submits]⟩
  | ready | stopped | recordFailure | leaveLoop | complete | requestStop | finishStop | resume => exact ⟨rfl, rfl⟩

theorem settled_run (counted : Counted q s) (posted : 0 < s.posted) {fs : List Event}
    (h : (machine P q).run s fs = some s') :
    s'.posted = s.posted ∧ submissions s'.log = submissions s.log := by
  have kept : Counted q s' ∧ s'.posted = s.posted ∧ submissions s'.log = submissions s.log := by
    refine Machine.run_invariant
      (I := fun u => Counted q u ∧ u.posted = s.posted ∧ submissions u.log = submissions s.log) ?_
      ⟨counted, rfl, rfl⟩ h
    rintro u e u' ⟨before, same, log⟩ step
    have step := step_cases step
    have last := settled_step (before.settled (by omega)) step
    exact ⟨counted_step before step, last.1.trans same, last.2.trans log⟩
  exact kept.2

/-- The transfers in flight, from their submission to their callback. -/
def transfersInFlight (q : Request) (s : State σ) : Finset Nat :=
  (Finset.range q.used).filter fun t => s.flight t ≠ .idle

/-- The initial transfers no submission of which has succeeded. -/
def neverSubmitted (q : Request) (s : State σ) : Finset Nat :=
  (Finset.range q.used).filter fun t => submitted s.log t = false

theorem neverSubmitted_congr (same : ∀ t, submitted s'.log t = submitted s.log t) :
    neverSubmitted q s' = neverSubmitted q s := by
  simp only [neverSubmitted, same]

theorem Counted.count_split (counted : Counted q s) (started : s.started = true) :
    s.inFlight = (transfersInFlight q s).card + (neverSubmitted q s).card := by
  have disjoint : Disjoint (transfersInFlight q s) (neverSubmitted q s) := by
    apply Finset.disjoint_filter.mpr
    intro t _ flying absent
    exact absurd (counted.flying t flying) (by simp [absent])
  rw [counted.count started, ← Finset.card_union_of_disjoint disjoint, transfersInFlight, neverSubmitted,
    ← Finset.filter_or]
  rfl

/-- The counter is exact, never underflows, and the one post comes when nothing is left. -/
structure CounterSafe (P : Pump σ) (q : Request) (s : State σ) : Prop where
  exact : s.started = true → s.callback = .idle →
    s.inFlight = (transfersInFlight q s).card + (neverSubmitted q s).card
  no_underflow : ∀ t s', (machine P q).step s (.callback t) = some s' → 0 < s.inFlight
  once : s.posted ≤ 1
  quiet : 0 < s.posted → ∀ t, s.flight t = .idle
  final : 0 < s.posted → ∀ fs s', (machine P q).run s fs = some s' →
    s'.posted = s.posted ∧ submissions s'.log = submissions s.log

theorem counter_safe (h : (machine P q).run (initial P q) es = some s) : CounterSafe P q s := by
  have counted := counted_run h
  refine ⟨fun started _ => counted.count_split started, ?_, ?_, fun posted => (counted.settled posted).still,
    fun posted fs s' rest => settled_run counted posted rest⟩
  · intro t s' step
    cases step_cases step with
    | drain _ _ completed | enter _ _ completed => exact counted.inFlight_pos (by rw [completed]; simp)
  · by_cases started : s.started = true
    · exact (counted.exact started).woken_le_one
    · rw [(counted.unstarted (by simpa using started)).2]
      exact Nat.zero_le _

/-- Neither awaitable posts its continuation early or twice. -/
theorem never_resumed_early_or_twice (q : Request) (limit : Nat) (es : List Event) :
    (∀ s, (machine (sequenceAwaitable q) q).run (initial (sequenceAwaitable q) q) es = some s →
      CounterSafe (sequenceAwaitable q) q s) ∧
    (∀ s, (machine (completeSequenceAwaitable q limit) q).run (initial (completeSequenceAwaitable q limit) q) es =
      some s → CounterSafe (completeSequenceAwaitable q limit) q s) :=
  ⟨fun _ h => counter_safe h, fun _ h => counter_safe h⟩

theorem never_resumed_early_or_twice_one_bulk :
    (∃ s, (machine (sequenceAwaitable oneBulk) oneBulk).run (initial (sequenceAwaitable oneBulk) oneBulk)
      oneCallback = some s ∧ s.posted = 1 ∧ CounterSafe (sequenceAwaitable oneBulk) oneBulk s) ∧
    (∃ s, (machine (completeSequenceAwaitable oneBulk 4) oneBulk).run
      (initial (completeSequenceAwaitable oneBulk 4) oneBulk) oneCallback = some s ∧ s.posted = 1 ∧
      CounterSafe (completeSequenceAwaitable oneBulk 4) oneBulk s) :=
  ⟨⟨_, rfl, rfl, (never_resumed_early_or_twice oneBulk 4 oneCallback).1 _ rfl⟩,
    ⟨_, rfl, rfl, (never_resumed_early_or_twice oneBulk 4 oneCallback).2 _ rfl⟩⟩

/-! ### Failing initial submissions -/

/-- The submission loop met a failure. -/
def Broken (q : Request) (s : State σ) : Prop :=
  match s.suspend with
  | .failed _ _ => True
  | .returnedNoop => ¬ Launched q s q.used
  | .start | .submitting _ | .returnedHandle | .notSuspended => False

theorem broken_congr (suspend : s'.suspend = s.suspend) (log : ∀ t, submitted s'.log t = submitted s.log t) :
    Broken q s' ↔ Broken q s := by
  simp only [Broken, suspend, Launched, log]

theorem broken_step (counted : Counted q s) (step : Step P q s e s') :
    Broken q s' ↔ Broken q s ∨ ∃ r, r ≠ 0 ∧ e = .submit r := by
  cases step with
  | submitOk i at_loop | submitFail i r at_loop => simp_all [Broken]
  | ready at_start | stopped at_start | filled at_start => simp [Broken, at_start]
  | recordFailure i r failed =>
    obtain ⟨launched, below, _⟩ := counted.refused failed
    have missing : ¬ Launched q s q.used := fun all =>
      absurd (launched.next.symm.trans ((all.2 i).mpr below)) (by simp)
    exact iff_of_true missing (Or.inl (by simp [Broken, failed]))
  | leaveLoop at_end =>
    have launched := counted.submitting at_end
    exact iff_of_false (fun missing => missing launched) (by simp [Broken, at_end])
  | drain | proceedResume | storeFailure =>
    simp only [reduceCtorEq, and_false, exists_false, or_false]
    exact broken_congr (by simp) (by simp [Action.launches])
  | resubmitOk t pump fresh tfer entered =>
    have launched := (counted.entered entered).2
    simp only [reduceCtorEq, and_false, exists_false, or_false]
    exact broken_congr rfl (submitted_again launched fresh tfer 0)
  | enter | complete | proceedFail | resubmitFail | requestStop | cancel | finishStop | resume =>
    simp only [reduceCtorEq, and_false, exists_false, or_false]
    refine broken_congr rfl fun u => ?_
    simp_all [Action.launches]

theorem broken_run (h : (machine P q).run (initial P q) es = some s) :
    Broken q s ↔ ∃ r, r ≠ 0 ∧ Event.submit r ∈ es := by
  induction es using List.reverseRecOn generalizing s with
  | nil =>
    obtain rfl := Option.some.inj h
    simp [Broken, initial]
  | append_singleton es e ih =>
    obtain ⟨u, before, last⟩ := Machine.run_concat.mp h
    rw [broken_step (counted_run before) (step_cases last), ih before, ← exists_or]
    apply exists_congr
    intro r
    simp only [List.mem_append, List.mem_singleton, and_or_left, eq_comm (a := e)]

/-- `await_suspend` has returned the noop coroutine, and no callback runs or will run. -/
structure Quiescent (s : State σ) : Prop where
  returned : s.suspend = .returnedNoop
  free : s.callback = .idle
  still : ∀ t, s.flight t = .idle

theorem posted_iff_launched (counted : Counted q s) (quiescent : Quiescent s) :
    s.posted = 1 ↔ Launched q s q.used ∧ 0 < q.used := by
  have started : s.started = true := by simp [State.started, quiescent.returned]
  have woken := (counted.exact started).woken_iff
  simp only [countdown, State.running_free quiescent.free, Nat.add_zero] at woken
  rw [woken, counted.count started, Finset.card_eq_zero]
  refine and_congr_left fun _ => ⟨fun empty => ⟨le_rfl, fun t => ⟨counted.lt_used, fun bound => ?_⟩⟩, fun all => ?_⟩
  · by_contra absent
    have member : t ∈ unfinished q s := mem_unfinished.mpr ⟨bound, Or.inr (by simpa using absent)⟩
    simp [empty] at member
  · apply Finset.filter_eq_empty_iff.mpr
    intro t bound isOpen
    rcases isOpen with flying | absent
    · exact flying (quiescent.still t)
    · exact absurd ((all.2 t).mpr (Finset.mem_range.mp bound)) (by simp [absent])

/-- A quiescent operation was resumed exactly when it had a transfer and every initial
submission succeeded. -/
theorem posted_once_iff (h : (machine P q).run (initial P q) es = some s) (quiescent : Quiescent s) :
    s.posted = 1 ↔ 0 < q.used ∧ ∀ r, Event.submit r ∈ es → r = 0 := by
  have broken := broken_run h
  rw [Broken, quiescent.returned] at broken
  dsimp only at broken
  have all : (∀ r, Event.submit r ∈ es → r = 0) ↔ Launched q s q.used := by
    rw [← not_iff_not, broken]
    simp only [not_forall]
    exact ⟨fun ⟨r, mem, ne⟩ => ⟨r, ne, mem⟩, fun ⟨r, ne, mem⟩ => ⟨r, mem, ne⟩⟩
  rw [posted_iff_launched (counted_run h) quiescent, all, and_comm]

/-- With buffers to process, a partial operation that has come to rest was resumed exactly
when it has a transfer and no initial submission failed, a complete one exactly when no
initial submission failed. -/
theorem woken_iff_submissions_succeed (q : Request) (limit : Nat) (es : List Event) (some_buffer : 0 < q.sizes.length) :
    (∀ s, (machine (sequenceAwaitable q) q).run (initial (sequenceAwaitable q) q) es = some s → Quiescent s →
      (s.posted = 1 ↔ 0 < q.transfers ∧ ∀ r, Event.submit r ∈ es → r = 0)) ∧
    (∀ s, (machine (completeSequenceAwaitable q limit) q).run (initial (completeSequenceAwaitable q limit) q) es =
      some s → 0 < q.used → Quiescent s → (s.posted = 1 ↔ ∀ r, Event.submit r ∈ es → r = 0)) := by
  constructor
  · intro s h quiescent
    rw [posted_once_iff h quiescent, Request.used_eq, lt_min_iff, and_iff_right some_buffer]
  · intro s h used quiescent
    rw [posted_once_iff h quiescent, and_iff_right used]

theorem woken_iff_submissions_succeed_one_bulk :
    (∃ s, (machine (sequenceAwaitable oneBulk) oneBulk).run (initial (sequenceAwaitable oneBulk) oneBulk)
      oneCallback = some s ∧ s.posted = 1) ∧
    (∃ s, (machine (completeSequenceAwaitable oneBulk 4) oneBulk).run
      (initial (completeSequenceAwaitable oneBulk 4) oneBulk) oneCallback = some s ∧ s.posted = 1) := by
  have landed : ∀ t, Function.update (Function.update (Function.update (fun _ => Flight.idle) 0 (.inFlight false))
      0 .completed) 0 .idle t = Flight.idle := fun t => by
    by_cases h : t = 0 <;> simp [h]
  have submitted : ∀ r, Event.submit r ∈ oneCallback → r = 0 := by simp [oneCallback]
  obtain ⟨first, second⟩ := woken_iff_submissions_succeed oneBulk 4 oneCallback (by decide)
  exact ⟨⟨_, rfl, (first _ rfl ⟨rfl, rfl, landed⟩).mpr ⟨by decide, submitted⟩⟩,
    ⟨_, rfl, (second _ rfl (by decide) ⟨rfl, rfl, landed⟩).mpr submitted⟩⟩

/-- `libusb_submit_transfer` returns `LIBUSB_ERROR_NO_DEVICE`: the operation rests and is never resumed. -/
theorem failed_submission_loses_wakeup :
    (∃ s, (machine (sequenceAwaitable oneBulk) oneBulk).run (initial (sequenceAwaitable oneBulk) oneBulk)
      [.suspend, .submit (-4), .recordFailure] = some s ∧ Quiescent s ∧ s.posted = 0) ∧
    (∃ s, (machine (completeSequenceAwaitable oneBulk 4) oneBulk).run
      (initial (completeSequenceAwaitable oneBulk 4) oneBulk) [.suspend, .submit (-4), .recordFailure] = some s ∧
      Quiescent s ∧ s.posted = 0) :=
  ⟨⟨_, rfl, ⟨rfl, rfl, fun _ => rfl⟩, rfl⟩, ⟨_, rfl, ⟨rfl, rfl, fun _ => rfl⟩, rfl⟩⟩

end CoUsb.Transfer

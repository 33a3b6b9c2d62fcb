import CoUsb.Lib.Ranking
import CoUsb.Transfer.Cancellation
import CoUsb.Transfer.PartialBuffers

/-!
# Coming to rest

The runs of a partial operation are bounded, whatever the device reports and whatever the type of the transfers. An
operation that cannot go on has nothing in flight, and its coroutine was resumed unless a submission of the first loop
failed or there was no transfer.
-/

namespace CoUsb.Transfer

variable {σ : Type} {P : Pump σ} {q : Request} {s s' : State σ} {e : Event} {es : List Event} {t : Nat}

/-! ### What cannot go on -/

/-- A stop request is all that may still come. -/
def AtRest (P : Pump σ) (q : Request) (s : State σ) : Prop :=
  ∀ e, e ≠ .requestStop → (machine P q).step s e = none

/-- A completion with nothing moved is always possible. -/
theorem exists_fits (tfer : LibusbTransfer) : ∃ c : Completion, c.fits tfer = true :=
  ⟨⟨.completed, 0, tfer.isoPackets⟩, by simp [Completion.fits]⟩

theorem AtRest.still (rest : AtRest P q s) : s.callback = .idle ∧ ∀ t, s.flight t = .idle := by
  have free : s.callback = .idle := by
    cases busy : s.callback with
    | idle => rfl
    | entered t =>
      have blocked := rest (.proceed 0) (by simp)
      simp [machine, step, busy] at blocked
    | failing t ec =>
      have blocked := rest .storeFailure (by simp)
      simp [machine, step, busy] at blocked
  refine ⟨free, fun t => ?_⟩
  cases flying : s.flight t with
  | idle => rfl
  | inFlight cancelled =>
    obtain ⟨c, fits⟩ := exists_fits (s.tfers t)
    have blocked := rest (.complete t c) (by simp)
    simp [machine, step, flying, fits] at blocked
  | completed =>
    have blocked := rest (.callback t) (by simp)
    simp [machine, step, free, flying] at blocked

/-- The suspending thread has left `await_suspend`. -/
theorem AtRest.left (rest : AtRest P q s) :
    s.suspend = .returnedNoop ∨ s.suspend = .returnedHandle ∨ s.suspend = .notSuspended := by
  cases at_loop : s.suspend with
  | start =>
    have blocked := rest .suspend (by simp)
    simp [machine, step, at_loop] at blocked
  | submitting i =>
    by_cases last : i = q.last
    · have blocked := rest .leaveLoop (by simp)
      simp [machine, step, at_loop, last] at blocked
    · have blocked := rest (.submit 0) (by simp)
      simp only [machine, step, at_loop, ne_eq, last, not_false_eq_true, if_true, reduceCtorEq] at blocked
  | failed i r =>
    have blocked := rest .recordFailure (by simp)
    simp [machine, step, at_loop] at blocked
  | returnedNoop => exact .inl rfl
  | returnedHandle => exact .inr (.inl rfl)
  | notSuspended => exact .inr (.inr rfl)

/-- A coroutine that did not suspend has its result. -/
def Direct (s : State σ) : Prop := s.suspend = .returnedHandle ∨ s.suspend = .notSuspended → s.resumed ≠ none

theorem direct_step (direct : Direct s) (step : Step P q s e s') : Direct s' := by
  unfold Direct
  cases step with
  | ready | stopped | resume => simp
  | filled | submitOk | submitFail | recordFailure | leaveLoop => simp
  | drain | proceedResume | storeFailure => simpa [Direct] using direct
  | enter | complete | proceedFail | resubmitOk | resubmitFail | requestStop | cancel | finishStop => exact direct

theorem direct_run (h : (machine P q).run (initial P q) es = some s) : Direct s :=
  Machine.run_invariant (fun direct step => direct_step direct (step_cases step)) (by simp [Direct, initial]) h

/-- At rest the coroutine has its result, unless it suspended without a transfer or with one that was refused. -/
theorem AtRest.resumed_iff (rest : AtRest P q s) (h : (machine P q).run (initial P q) es = some s) :
    s.resumed ≠ none ↔ (s.suspend = .returnedNoop → 0 < q.used ∧ ∀ r, Event.submit r ∈ es → r = 0) := by
  obtain ⟨free, still⟩ := rest.still
  rcases rest.left with noop | direct
  · have woken := posted_once_iff h ⟨noop, free, still⟩
    constructor
    · intro resumed _
      obtain ⟨⟨ec, n⟩, result⟩ := Option.ne_none_iff_exists'.mp resumed
      have posted : 0 < s.posted := by
        rcases ((returned_run h).2.resumed ec n result).2.2 with posted | handle | ready
        · exact posted
        · cases noop.symm.trans handle
        · cases noop.symm.trans ready
      exact woken.mp (le_antisymm (counter_safe h).once posted)
    · intro launched none
      have posted := woken.mpr (launched noop)
      have blocked := rest .resume (by simp)
      simp [machine, step, posted, none] at blocked
  · refine iff_of_true (direct_run h direct) fun noop => ?_
    rcases direct with handle | ready
    · cases noop.symm.trans handle
    · cases noop.symm.trans ready

/-! ### How much is left to do -/

def Flight.work : Flight → Nat
  | .idle => 0
  | .completed => 3
  | .inFlight _ => 4

def Callback.work : Callback → Nat
  | .idle => 0
  | .failing _ _ => 1
  | .entered _ => 2

def Suspend.work (q : Request) : Suspend → Nat
  | .start => 2 * q.used + 3
  | .submitting i => 5 * (q.used - i) + 2
  | .failed _ _ => 1
  | .returnedNoop | .returnedHandle | .notSuspended => 0

def Stop.work (q : Request) : Stop → Nat
  | .idle => q.used + 2
  | .cancelling i => q.used - i + 1
  | .finished => 0

/-- What is left of an operation, with three steps for the callback of each buffer that is not handed out. -/
def work (q : Request) (s : State SequenceState) : Nat :=
  3 * (q.sizes.length - s.pump.bufCurrent) + ∑ t ∈ Finset.range q.used, (s.flight t).work + s.callback.work +
    s.suspend.work q + s.stop.work q + (if s.resumed = none then 1 else 0)

theorem sum_flight (flight : Nat → Flight) (g : Flight) (used : t < q.used) :
    ∑ u ∈ Finset.range q.used, (Function.update flight t g u).work + (flight t).work =
      ∑ u ∈ Finset.range q.used, (flight u).work + g.work := by
  have member := Finset.mem_range.mpr used
  rw [← Finset.add_sum_erase _ _ member, ← Finset.add_sum_erase _ (fun u => (flight u).work) member,
    Function.update_self, Finset.sum_congr rfl fun u other => by
      rw [Function.update_of_ne (Finset.ne_of_mem_erase other)]]
  omega

theorem work_cancel (f : Flight) : f.cancel.work = f.work := by
  cases f <;> rfl

/-- Posting the continuation is no work of the operation. -/
theorem work_resumeOnZero (s : State SequenceState) : work q (resumeOnZero s) = work q s := by
  simp [work]

theorem work_step {s s' : State SequenceState} (counted : Counted q s) (handed : PartialHanded q s)
    (bound : ∀ i, s.stop = .cancelling i → i ≤ q.used) (step : Step (sequenceAwaitable q) q s e s') :
    work q s' + 1 ≤ work q s := by
  cases step with
  | ready at_start | stopped at_start =>
    simp only [work, at_start, Suspend.work]
    split <;> simp <;> omega
  | filled at_start =>
    obtain ⟨cur, _⟩ := fillLoop_assigns (sequenceAwaitable_sequential q) handed at_start
    have zero := handed.start (by simp [State.started, at_start])
    have le := q.used_le_length
    simp only [work, cur, zero, at_start, Suspend.work, fillLoop_flight, fillLoop_callback, fillLoop_stop,
      fillLoop_resumed]
    omega
  | submitOk i at_loop more =>
    have launched := counted.submitting at_loop
    have used := lt_of_le_of_ne launched.1 more
    have idle : s.flight i = .idle := by
      by_contra flying
      exact absurd (launched.next.symm.trans (counted.flying i flying)) (by simp)
    have sum := sum_flight s.flight (.inFlight false) used
    simp only [work, at_loop, Suspend.work]
    simp only [idle, Flight.work] at sum ⊢
    omega
  | submitFail i r at_loop =>
    simp only [work, at_loop, Suspend.work]
    omega
  | recordFailure i r at_loop | leaveLoop at_loop =>
    simp only [work, at_loop, Suspend.work]
    omega
  | complete t c cancelled flying =>
    have used := counted.lt_used (counted.flying t (by simp [flying]))
    have sum := sum_flight s.flight .completed used
    simp only [flying, Flight.work] at sum
    simp only [work]
    simp only [Flight.work]
    omega
  | drain t free landed =>
    have used := counted.lt_used (counted.flying t (by simp [landed]))
    have sum := sum_flight s.flight .idle used
    simp only [landed, Flight.work] at sum
    rw [work_resumeOnZero]
    simp only [work, Flight.work]
    omega
  | enter t free landed =>
    have used := counted.lt_used (counted.flying t (by simp [landed]))
    have sum := sum_flight s.flight .idle used
    simp only [landed, Flight.work] at sum
    simp only [work, free, Callback.work, Flight.work]
    omega
  | proceedResume t r pump entered exit =>
    cases sequenceAwaitable_exit exit
    rw [work_resumeOnZero]
    simp only [work, entered, Callback.work]
    omega
  | proceedFail t r pump ec entered exit =>
    cases sequenceAwaitable_exit exit
    simp only [work, entered, Callback.work]
    omega
  | resubmitOk t pump fresh tfer entered exit =>
    obtain ⟨idle, launched⟩ := counted.entered entered
    have sum := sum_flight s.flight (.inFlight false) (counted.lt_used launched)
    cases sequenceAwaitable_exit exit with
    | next _ left =>
      have more := lt_of_le_of_ne handed.cur_le left
      simp only [idle, Flight.work] at sum
      simp only [work, entered, Callback.work, Flight.work]
      omega
  | resubmitFail t r pump fresh tfer entered failed exit =>
    cases sequenceAwaitable_exit exit with
    | next _ left =>
      simp only [work, entered, Callback.work]
      omega
  | storeFailure t ec failing =>
    rw [work_resumeOnZero]
    simp only [work, failing, Callback.work]
    omega
  | requestStop quiet =>
    simp only [work, quiet, Stop.work]
    omega
  | cancel i cancelling more =>
    have sum := sum_flight s.flight (s.flight i).cancel (lt_of_le_of_ne (bound i cancelling) more)
    rw [work_cancel] at sum
    have less := lt_of_le_of_ne (bound i cancelling) more
    simp only [work, cancelling, Stop.work]
    omega
  | finishStop cancelling =>
    simp only [work, cancelling, Stop.work]
    omega
  | resume posted first =>
    simp only [work, first]
    simp

theorem work_ranks (q : Request) : Machine.Ranking (machine (sequenceAwaitable q) q)
    (fun s => Counted q s ∧ PartialHanded q s ∧ ∀ i, s.stop = .cancelling i → i ≤ q.used) (fun _ _ => True)
    (fun _ => true) (work q) := by
  constructor
  · rintro s e s' ⟨counted, handed, bound⟩ _ step
    have step := step_cases step
    exact ⟨counted_step counted step, handed_step (sequenceAwaitable_sequential q) counted handed step,
      stop_bound_step step bound⟩
  · rintro s e s' ⟨counted, handed, bound⟩ _ step
    exact work_step counted handed bound (step_cases step)

theorem work_initial (q : Request) :
    work q (initial (sequenceAwaitable q) q) = 3 * q.sizes.length + 3 * q.used + 6 := by
  have start : (sequenceAwaitable q).start.bufCurrent = 0 := rfl
  simp only [work, initial, start, Flight.work, Callback.work, Suspend.work, Stop.work, Finset.sum_const_zero, if_true]
  omega

theorem run_length_le {s : State SequenceState}
    (h : (machine (sequenceAwaitable q) q).run (initial (sequenceAwaitable q) q) es = some s) :
    es.length ≤ 3 * q.sizes.length + 3 * q.used + 6 := by
  have bound := (work_ranks q).bounds ⟨counted_initial _ q, handed_initial (sequenceAwaitable_sequential q),
    by simp [initial]⟩ h fun _ _ _ _ _ => trivial
  rw [work_initial, List.countP_true] at bound
  omega

/-- Three steps for each buffer, three for each transfer and six more are all that a partial operation can take. Where
either operation can take no further step, its coroutine has its result unless it was suspended without a transfer or
with one whose submission failed. -/
theorem operations_come_to_rest (q : Request) (limit : Nat) (es : List Event) :
    (∀ s, (machine (sequenceAwaitable q) q).run (initial (sequenceAwaitable q) q) es = some s →
      es.length ≤ 3 * q.sizes.length + 3 * q.used + 6 ∧
      (AtRest (sequenceAwaitable q) q s →
        (s.resumed ≠ none ↔ (s.suspend = .returnedNoop → 0 < q.used ∧ ∀ r, Event.submit r ∈ es → r = 0)))) ∧
    (∀ s, (machine (completeSequenceAwaitable q limit) q).run (initial (completeSequenceAwaitable q limit) q) es =
      some s → AtRest (completeSequenceAwaitable q limit) q s →
        (s.resumed ≠ none ↔ (s.suspend = .returnedNoop → 0 < q.used ∧ ∀ r, Event.submit r ∈ es → r = 0))) :=
  ⟨fun _ h => ⟨run_length_le h, fun rest => rest.resumed_iff h⟩, fun _ h rest => rest.resumed_iff h⟩

theorem atRest_of_resumed (noop : s.suspend = .returnedNoop) (free : s.callback = .idle)
    (still : ∀ t, s.flight t = .idle) (quiet : s.stop = .idle) (resumed : s.resumed ≠ none) : AtRest P q s := by
  intro e other
  cases e <;> simp_all [machine, step]

theorem operations_come_to_rest_one_bulk :
    (∃ s, (machine (sequenceAwaitable oneBulk) oneBulk).run (initial (sequenceAwaitable oneBulk) oneBulk)
      (oneCallback ++ [Event.resume]) = some s ∧ (oneCallback ++ [Event.resume]).length ≤ 12 ∧ s.resumed ≠ none) ∧
    (∃ s, (machine (completeSequenceAwaitable oneBulk 4) oneBulk).run
      (initial (completeSequenceAwaitable oneBulk 4) oneBulk) (oneCallback ++ [.resume]) = some s ∧
      s.resumed ≠ none) := by
  have landed : ∀ t, Function.update (Function.update (Function.update (fun _ => Flight.idle) 0 (.inFlight false))
      0 .completed) 0 .idle t = Flight.idle := fun t => by
    by_cases h : t = 0 <;> simp [h]
  have accepted : ∀ r, Event.submit r ∈ oneCallback ++ [Event.resume] → r = 0 := by simp [oneCallback]
  have partialRun := (operations_come_to_rest oneBulk 4 (oneCallback ++ [Event.resume])).1 _ rfl
  have completeRun := (operations_come_to_rest oneBulk 4 (oneCallback ++ [Event.resume])).2 _ rfl
  refine ⟨⟨_, rfl, partialRun.1, ?_⟩, ⟨_, rfl, ?_⟩⟩
  · exact (partialRun.2 (atRest_of_resumed rfl rfl landed rfl (by simp))).mpr fun _ => ⟨by decide, accepted⟩
  · exact (completeRun (atRest_of_resumed rfl rfl landed rfl (by simp))).mpr fun _ => ⟨by decide, accepted⟩

end CoUsb.Transfer

import CoUsb.Transfer.CompleteBuffers
import CoUsb.Transfer.PartialBuffers

/-!
# Complete I/O without short completions

When a completed transfer has moved all its bytes, a total never falls short of its threshold,
although it is not reset: the two operations make the same steps.
-/

namespace CoUsb.Transfer

variable {q : Request} {e : Event} {es fs : List Event} {t n limit : Nat}

/-! ### The bytes there is room for -/

section

variable {s s' : State SequenceState}

/-- The bytes counted and the buffers the operation waits for, within the buffers handed out. -/
def Budgeted (q : Request) (s : State SequenceState) : Prop :=
  countedBytes s.log + ∑ t ∈ pending q s, q.sizes.getD (bufferOf s.tfers t) 0 ≤
    ∑ j ∈ Finset.range s.pump.bufCurrent, q.sizes.getD j 0

theorem Budgeted.of_frame (budgeted : Budgeted q s) (log : countedBytes s'.log = countedBytes s.log)
    (waits : pending q s' = pending q s) (buffers : ∀ t ∈ pending q s, bufferOf s'.tfers t = bufferOf s.tfers t)
    (cur : s.pump.bufCurrent ≤ s'.pump.bufCurrent) : Budgeted q s' := by
  unfold Budgeted at budgeted ⊢
  rw [log, waits, Finset.sum_congr rfl fun t member => congrArg (q.sizes.getD · 0) (buffers t member)]
  exact budgeted.trans (Finset.sum_le_sum_of_subset (Finset.range_subset_range.mpr cur))

theorem Budgeted.callback (budgeted : Budgeted q s) (member : t ∈ pending q s)
    (waits : pending q s' = (pending q s).erase t)
    (log : countedBytes s'.log ≤ countedBytes s.log + q.sizes.getD (bufferOf s.tfers t) 0)
    (buffers : ∀ u, bufferOf s'.tfers u = bufferOf s.tfers u) (cur : s'.pump.bufCurrent = s.pump.bufCurrent) :
    Budgeted q s' := by
  unfold Budgeted at budgeted ⊢
  rw [waits, cur, Finset.sum_congr rfl fun u _ => congrArg (q.sizes.getD · 0) (buffers u)]
  rw [← Finset.add_sum_erase _ _ member] at budgeted
  omega

theorem Budgeted.take (budgeted : Budgeted q s) (outside : t ∉ pending q s)
    (waits : pending q s' = insert t (pending q s))
    (log : countedBytes s'.log = countedBytes s.log) (holds : bufferOf s'.tfers t = s.pump.bufCurrent)
    (others : ∀ u, u ≠ t → bufferOf s'.tfers u = bufferOf s.tfers u)
    (cur : s'.pump.bufCurrent = s.pump.bufCurrent + 1) :
    Budgeted q s' := by
  unfold Budgeted at budgeted ⊢
  have same : ∑ u ∈ pending q s, q.sizes.getD (bufferOf s'.tfers u) 0 =
      ∑ u ∈ pending q s, q.sizes.getD (bufferOf s.tfers u) 0 := by
    apply Finset.sum_congr rfl
    intro u member
    rw [others u fun here => outside (here ▸ member)]
  rw [log, waits, Finset.sum_insert outside, same, holds, cur, Finset.sum_range_succ]
  omega

theorem budgeted_filled (handed : PartialHanded q s) (budgeted : Budgeted q s)
    (at_start : s.suspend = .start) :
    Budgeted q (s.fill (sequenceAwaitable q) q) := by
  have unstarted : s.started = false := by simp [State.started, at_start]
  have none : countedBytes s.log = 0 := by
    simpa [Budgeted, pending, unstarted, handed.start unstarted] using budgeted
  obtain ⟨pump, _, assigned⟩ := fillLoop_assigns (sequenceAwaitable_sequential q) handed at_start
  have calls := (callbacks_fillLoop (sequenceAwaitable q) q.positions s).1
  unfold Budgeted
  dsimp only
  rw [pump, countedBytes, calls, ← countedBytes, none, Nat.zero_add]
  have within : pending q (s.fill (sequenceAwaitable q) q) ⊆ Finset.range q.used := Finset.filter_subset _ _
  refine (Finset.sum_le_sum_of_subset within).trans_eq (Finset.sum_congr rfl fun t used => ?_)
  rw [bufferOf, (assigned t (Finset.mem_range.mp used)).1]

theorem budgeted_landed (inv : PartialInvariant q s) (budgeted : Budgeted q s) (landed : s.flight t = .completed)
    (started : s'.started = s.started) (flight : s'.flight = Function.update s.flight t .idle)
    (launched : ∀ u, submitted s'.log u = submitted s.log u)
    (log : countedBytes s'.log ≤ countedBytes s.log + (s.tfers t).actualLength) (tfers : s'.tfers = s.tfers)
    (cur : s'.pump.bufCurrent = s.pump.bufCurrent) : Budgeted q s' := by
  obtain ⟨member, waits⟩ := pending_landed inv.counted landed started flight launched
  have room := inv.bounded.callback inv.counted inv.ordinary landed
  exact budgeted.callback member waits (by omega) (fun u => by rw [tfers]) cur

theorem budgeted_step (inv : PartialInvariant q s) (budgeted : Budgeted q s)
    (step : Step (sequenceAwaitable q) q s e s') : Budgeted q s' := by
  have counted := inv.counted
  have log := countedBytes_step step
  cases step with
  | ready at_start | stopped at_start =>
    refine budgeted.of_frame log ?_ (fun _ _ => rfl) le_rfl
    simp [pending, State.started, at_start]
  | filled at_start => exact budgeted_filled inv.handed budgeted at_start
  | submitOk i at_loop more =>
    have looped := counted.submitting at_loop
    have absent := looped.next
    refine budgeted.of_frame log (pending_congr (by simp [State.started, at_loop]) fun t => ?_) (fun _ _ => rfl) le_rfl
    by_cases here : t = i
    · subst t; simp [State.isOpen, absent]
    · simp [State.isOpen, Function.update_of_ne here, Action.launches, Ne.symm here]
  | submitFail i r at_loop _ failed =>
    refine budgeted.of_frame log (pending_congr (by simp [State.started, at_loop]) fun t => ?_) (fun _ _ => rfl) le_rfl
    simp [State.isOpen, Action.launches, failed]
  | recordFailure i r at_loop | leaveLoop at_loop =>
    exact budgeted.of_frame log (pending_congr (by simp [State.started, at_loop]) fun _ => Iff.rfl)
      (fun _ _ => rfl) le_rfl
  | complete u c cancelled flying =>
    refine budgeted.of_frame log (pending_congr rfl fun t => ?_) (fun t _ => bufferOf_finish s.tfers u c t) le_rfl
    simp only [State.isOpen, ne_eq,
      update_idle_iff u t (by simp [flying] : Flight.completed = .idle ↔ s.flight u = .idle)]
  | drain u free landed failed =>
    refine budgeted_landed inv budgeted landed (started_congr (by simp)) (by simp) (by simp [Action.launches]) ?_
      (by simp) (by simp)
    simp [log, called, Action.counted, failed]
  | enter u free landed fine =>
    refine budgeted_landed inv budgeted landed rfl rfl (by simp [Action.launches]) ?_ rfl rfl
    simp [log, called, Action.counted, fine]
  | proceedResume u r pump entered exit =>
    cases sequenceAwaitable_exit exit with
    | finished =>
      exact budgeted.of_frame log (pending_congr (started_congr (by simp)) (by simp [State.isOpen]))
        (by simp [bufferOf])
        (by simp)
  | proceedFail u r pump ec entered exit =>
    cases sequenceAwaitable_exit exit with
    | failed => exact budgeted.of_frame log rfl (fun _ _ => rfl) le_rfl
  | resubmitOk u pump fresh tfer entered exit =>
    have busy := busy_entered entered
    have again := submitted_again (counted.entered entered).2 fresh tfer 0
    cases sequenceAwaitable_exit exit with
    | next =>
      refine budgeted.take (not_pending counted busy) (pending_relaunched counted busy rfl rfl again) log
        (bufferOf_update_self ..) (fun v other => bufferOf_update_of_ne other ..) rfl
  | resubmitFail u r pump fresh tfer entered failed exit =>
    have again := submitted_again (counted.entered entered).2 fresh tfer r
    have outside := not_pending counted (busy_entered entered)
    cases sequenceAwaitable_exit exit with
    | next =>
      refine budgeted.of_frame log (pending_congr rfl fun v => ?_) (fun v member => ?_) (Nat.le_succ _)
      · rw [State.isOpen, State.isOpen]
        dsimp only
        rw [again]
      · have different : v ≠ u := fun same => outside (same ▸ member)
        exact bufferOf_update_of_ne different ..
  | storeFailure u ec failing =>
    exact budgeted.of_frame log (pending_congr (started_congr (by simp)) (by simp [State.isOpen])) (by simp [bufferOf])
      (by simp)
  | cancel i =>
    have same : (s.flight i).cancel = .idle ↔ s.flight i = .idle := by cases s.flight i <;> simp [Flight.cancel]
    refine budgeted.of_frame log (pending_congr rfl fun t => ?_) (fun _ _ => rfl) le_rfl
    simp only [State.isOpen, ne_eq, update_idle_iff i t same, submitted_append, submitted_singleton, Action.launches,
      Bool.or_false]
  | requestStop | finishStop | resume => exact budgeted.of_frame log rfl (fun _ _ => rfl) le_rfl

theorem budgeted_run (plain : q.NonIsochronous)
    (h : (machine (sequenceAwaitable q) q).run (initial (sequenceAwaitable q) q) es = some s) : Budgeted q s := by
  have kept : PartialInvariant q s ∧ Budgeted q s := by
    refine Machine.run_invariant (I := fun s => PartialInvariant q s ∧ Budgeted q s) ?_ ⟨?_, ?_⟩ h
    · rintro s e s' ⟨inv, budgeted⟩ step
      have step := step_cases step
      exact ⟨partial_step plain inv step, budgeted_step inv budgeted step⟩
    · exact partial_run plain Machine.run_nil
    · simp [Budgeted, initial, countedBytes, callbacks, pending, State.started]
  exact kept.2

theorem countedBytes_le (plain : q.NonIsochronous)
    (h : (machine (sequenceAwaitable q) q).run (initial (sequenceAwaitable q) q) es = some s) :
    countedBytes s.log ≤ q.sizes.sum := by
  have within : s.pump.bufCurrent ≤ q.sizes.length := (partial_run plain h).handed.cur_le
  calc countedBytes s.log
      ≤ ∑ j ∈ Finset.range s.pump.bufCurrent, q.sizes.getD j 0 := (Nat.le_add_right _ _).trans (budgeted_run plain h)
    _ ≤ ∑ j ∈ Finset.range q.sizes.length, q.sizes.getD j 0 :=
        Finset.sum_le_sum_of_subset (Finset.range_subset_range.mpr within)
    _ = q.sizes.sum := q.sum_sizes

end

/-! ### The totals of a complete operation -/

section

variable {s s' : State CompleteState}

theorem completeSequenceAwaitable_tallies (q : Request) (limit : Nat) :
    Tallies (completeSequenceAwaitable q limit) q fun p n => ∑ t ∈ Finset.range q.used, (p.states t).total ≤ n := by
  refine ⟨(Finset.sum_eq_zero fun _ _ => rfl).le, fun {p n} t tfer knows => ?_, fun {p n} t tfer used plain knows => ?_⟩
  · refine le_of_eq_of_le (Finset.sum_congr rfl fun u _ => ?_) knows
    by_cases same : u = t
    · subst u; simp [CompleteSequenceAwaitable.fill]
    · simp [CompleteSequenceAwaitable.fill, Function.update_of_ne same]
  · rw [Finset.sum_congr rfl fun u _ => completeSequenceAwaitable_totals limit p plain u]
    have member := Finset.mem_range.mpr used
    have wrapped := Word.wrap_le 64 ((p.states t).total + tfer.actualLength)
    rw [← Finset.add_sum_erase _ _ member] at knows ⊢
    rw [Function.update_self,
      Finset.sum_congr rfl fun u other => Function.update_of_ne (Finset.ne_of_mem_erase other) _ _]
    change sizeT ((p.states t).total + tfer.actualLength) ≤ _ at wrapped
    omega

/-- The threshold of a transfer is the size of the buffer it holds. -/
def Expects (q : Request) (s : State CompleteState) : Prop :=
  s.started = true → ∀ t, t < q.used → (s.pump.states t).expected = q.sizes.getD (bufferOf s.tfers t) 0

theorem Expects.proceed {prg : TransferProgress} (expects : Expects q s) (started : s'.started = s.started)
    (states : s'.pump.states = Function.update s.pump.states t prg)
    (others : ∀ u, u ≠ t → bufferOf s'.tfers u = bufferOf s.tfers u)
    (own : s.started = true → t < q.used → prg.expected = q.sizes.getD (bufferOf s'.tfers t) 0) : Expects q s' := by
  intro now u used
  rw [started] at now
  rw [states]
  by_cases same : u = t
  · subst u
    rw [Function.update_self]
    exact own now used
  · rw [Function.update_of_ne same, others u same]
    exact expects now u used

theorem expects_submit {pump : CompleteState} {fresh : Bool} {tfer : LibusbTransfer} (handed : CompleteHanded q s)
    (expects : Expects q s) (started : s'.started = s.started)
    (exit : (completeSequenceAwaitable q limit).process s.pump t (s.tfers t) = (pump, .submit fresh tfer))
    (same : s'.pump = pump) (tfers : s'.tfers = Function.update s.tfers t tfer) : Expects q s' := by
  have others : ∀ u, u ≠ t → bufferOf s'.tfers u = bufferOf s.tfers u := by
    intro u other
    rw [tfers]
    exact bufferOf_update_of_ne other ..
  have holds : bufferOf s'.tfers t = tfer.buffer.buffer := by rw [tfers, bufferOf_update_self]
  cases completeSequenceAwaitable_exit exit with
  | next =>
    apply expects.proceed started (by rw [same]) others
    intro _ _
    rw [holds]
    rfl
  | again =>
    apply expects.proceed started (by rw [same]) others
    intro now used
    have aligned : (s.pump.states t).ptr.buffer = bufferOf s.tfers t := handed.aligned now t used
    rw [holds, Pointer.add_buffer, aligned]
    exact expects now t used

theorem expects_step (handed : CompleteHanded q s) (expects : Expects q s)
    (step : Step (completeSequenceAwaitable q limit) q s e s') : Expects q s' := by
  cases step with
  | ready | stopped => intro now; cases now
  | filled at_start =>
    obtain ⟨_, assigned⟩ := fillLoop_progress limit handed at_start
    intro _ t used
    obtain ⟨total, tfer, prg, given⟩ := assigned t used
    dsimp only
    rw [prg, bufferOf, given]
    rfl
  | submitOk i at_loop | submitFail i r at_loop | recordFailure i r at_loop | leaveLoop at_loop =>
    exact fun _ => expects (by simp [State.started, at_loop])
  | complete u c =>
    intro now t used
    dsimp only
    rw [bufferOf_finish]
    exact expects now t used
  | drain | storeFailure =>
    intro now t used
    rw [resumeOnZero_tfers, resumeOnZero_pump]
    exact expects ((started_congr (by simp)).symm.trans now) t used
  | proceedResume u r pump entered exit =>
    cases completeSequenceAwaitable_exit exit with
    | finished =>
      exact expects.proceed (started_congr (by simp)) (by simp; rfl) (by simp [bufferOf]) fun now used => by
        simpa [bufferOf, CompleteSequenceAwaitable.counted] using expects now u used
  | proceedFail u r pump ec entered exit =>
    cases completeSequenceAwaitable_exit exit with
    | failed => exact expects.proceed rfl rfl (fun _ _ => rfl) fun now used => expects now u used
  | resubmitOk u pump fresh tfer entered exit | resubmitFail u r pump fresh tfer entered failed exit =>
    exact expects_submit handed expects rfl exit rfl rfl
  | enter | requestStop | cancel | finishStop | resume => exact expects

theorem expects_run (plain : q.NonIsochronous) (small : q.sizes.sum < 2 ^ 64)
    (h : (machine (completeSequenceAwaitable q limit) q).run (initial (completeSequenceAwaitable q limit) q) es =
      some s) : CompleteInvariant q s ∧ Expects q s := by
  refine Machine.run_invariant (I := fun s => CompleteInvariant q s ∧ Expects q s) ?_
    ⟨complete_initial q limit, by simp [Expects, initial, State.started]⟩ h
  rintro s e s' ⟨inv, expects⟩ step
  have step := step_cases step
  exact ⟨complete_step plain small inv step, expects_step inv.handed expects step⟩

end

/-! ### One step of both -/

section

variable {σ τ : Type} {P : Pump σ} {Q : Pump τ} {s : State σ} {u : State τ}

/-- An operation as its environment sees it, with the count `await_resume` would return. -/
def State.observed (P : Pump σ) (s : State σ) : State Nat where
  suspend := s.suspend
  callback := s.callback
  stop := s.stop
  ec := s.ec
  inFlight := s.inFlight
  pump := P.total s.pump
  tfers := s.tfers
  flight := s.flight
  posted := s.posted
  resumed := s.resumed
  log := s.log

theorem observed_resumeOnZero (same : s.observed P = u.observed Q) :
    (resumeOnZero s).observed P = (resumeOnZero u).observed Q := by
  have inFlight : s.inFlight = u.inFlight := congrArg State.inFlight same
  unfold resumeOnZero
  rw [inFlight]
  split
  · simp only [State.observed, State.mk.injEq] at same ⊢
    simp [same]
  · exact same

theorem observed_proceed (same : s.observed P = u.observed Q) (r : Int)
    (next : (P.process s.pump t (s.tfers t)).2 = (Q.process u.pump t (u.tfers t)).2)
    (count : P.total (P.process s.pump t (s.tfers t)).1 = Q.total (Q.process u.pump t (u.tfers t)).1) :
    (proceedCallback P s t r).observed P = (proceedCallback Q u t r).observed Q := by
  simp only [State.observed, State.mk.injEq] at same
  rcases exit : P.process s.pump t (s.tfers t) with ⟨p, exit'⟩
  rcases other : Q.process u.pump t (u.tfers t) with ⟨p', exit''⟩
  rw [exit, other] at next count
  obtain rfl : exit' = exit'' := next
  unfold proceedCallback
  rw [exit, other]
  cases exit' with
  | resume =>
    apply observed_resumeOnZero
    simp only [State.observed, *]
  | fail ec' => simp only [State.observed, *]
  | submit fresh tfer =>
    dsimp only
    split <;> simp only [State.observed, *]

/-- Two operations that look the same make the same step. -/
theorem step_observed (same : s.observed P = u.observed Q) (ready : P.ready s.pump = Q.ready u.pump)
    (fill : (fillLoop P q.positions s).observed P = (fillLoop Q q.positions u).observed Q)
    (process : ∀ t, s.callback = .entered t → (P.process s.pump t (s.tfers t)).2 = (Q.process u.pump t (u.tfers t)).2 ∧
      P.total (P.process s.pump t (s.tfers t)).1 = Q.total (Q.process u.pump t (u.tfers t)).1) :
    (step P q s e).map (State.observed P) = (step Q q u e).map (State.observed Q) := by
  have looks := same
  simp only [State.observed, State.mk.injEq] at looks
  obtain ⟨suspend, callback, stop, ec, inFlight, total, tfers, flight, posted, resumed, log⟩ := looks
  cases e with
  | suspend =>
    simp only [step, suspend]
    split
    · simp only [Option.map_some, awaitSuspend, ready, stop]
      split
      · simp [State.observed, *]
      · split
        · simp [State.observed, *]
        · simp only [State.observed, State.mk.injEq] at fill ⊢
          simp only [fill]
    · rfl
  | submit r =>
    simp only [step, suspend]
    split
    · split
      · simp only [Option.map_some, submitNext]
        split <;> simp [State.observed, *]
      · rfl
    · rfl
  | recordFailure =>
    simp only [step, suspend]
    split
    · simp [State.observed, *]
    · rfl
  | leaveLoop =>
    simp only [step, suspend]
    split
    · simp [State.observed, *]
    · rfl
  | complete t c =>
    simp only [step, flight, tfers]
    split
    · split
      · simp [State.observed, *]
      · rfl
    · rfl
  | callback t =>
    simp only [step, callback, flight]
    split
    · simp only [Option.map_some, enterCallback, ec]
      split
      · refine congrArg some (observed_resumeOnZero ?_)
        simp [State.observed, *]
      · simp [State.observed, *]
    · rfl
  | proceed r =>
    simp only [step, callback]
    split
    case h_1 t entered =>
      obtain ⟨next, count⟩ := process t (callback.trans entered)
      exact congrArg some (observed_proceed same r next count)
    case h_2 => rfl
  | storeFailure =>
    simp only [step, callback]
    split
    · refine congrArg some (observed_resumeOnZero ?_)
      simp [State.observed, *]
    · rfl
  | requestStop =>
    simp only [step, stop]
    split
    · simp [State.observed, *]
    · rfl
  | cancel =>
    simp only [step, stop]
    split
    · split
      · simp [State.observed, *]
      · rfl
    · rfl
  | finishStop =>
    simp only [step, stop]
    split
    · simp [State.observed, *]
    · rfl
  | resume =>
    simp only [step, posted, resumed]
    split
    · simp [State.observed, *]
    · rfl

end

section

variable {s : State SequenceState} {u : State CompleteState}

theorem Request.size_le (fits : ∀ n ∈ q.sizes, n ≤ limit) (j : Nat) : (q.buffer j).size ≤ limit := by
  show q.sizes.getD j 0 ≤ limit
  by_cases bound : j < q.sizes.length
  · exact fits _ (by simp [bound])
  · simp [Nat.not_lt.mp bound]

theorem fillLoop_observed (fits : ∀ n ∈ q.sizes, n ≤ limit) (ts : List Nat)
    (same : s.observed (sequenceAwaitable q) = u.observed (completeSequenceAwaitable q limit))
    (cur : s.pump.bufCurrent = u.pump.bufCurrent) :
    (fillLoop (sequenceAwaitable q) ts s).observed (sequenceAwaitable q) =
      (fillLoop (completeSequenceAwaitable q limit) ts u).observed (completeSequenceAwaitable q limit) := by
  induction ts generalizing s u with
  | nil => exact same
  | cons t ts ih =>
    refine ih (s := fillRound (sequenceAwaitable q) s t) (u := fillRound (completeSequenceAwaitable q limit) u t) ?_
      (congrArg (· + 1) cur)
    have count := (completeSequenceAwaitable_counts q limit).fill u.pump t (u.tfers t)
    have whole := Nat.min_eq_left (q.size_le fits u.pump.bufCurrent)
    have total : s.pump.total = (completeSequenceAwaitable q limit).total u.pump := congrArg State.pump same
    simp only [State.observed, State.mk.injEq] at same ⊢
    simp only [fillRound, sequenceAwaitable_fill, completeSequenceAwaitable_fill] at count ⊢
    simp only [SequenceAwaitable.fill, CompleteSequenceAwaitable.fill, whole] at count ⊢
    simp only [same, cur, count, and_self, true_and]
    exact ⟨total, trivial⟩

/-- Where a total reaches its threshold with every completion, both callbacks go on the same way. -/
theorem process_agrees {p : SequenceState} {p' : CompleteState} {tfer : LibusbTransfer}
    (fits : ∀ n ∈ q.sizes, n ≤ limit)
    (cur : p.bufCurrent = p'.bufCurrent) (plain : tfer.type ≠ .isochronous)
    (done : tfer.status = .completed → (p'.states t).expected ≤ (CompleteSequenceAwaitable.counted p' t tfer).total) :
    (SequenceAwaitable.process q p t tfer).2 = (CompleteSequenceAwaitable.process q limit p' t tfer).2 := by
  have whole := Nat.min_eq_left (q.size_le fits p'.bufCurrent)
  unfold SequenceAwaitable.process CompleteSequenceAwaitable.process
  rw [SequenceAwaitable.count_ordinary p plain, CompleteSequenceAwaitable.failure_ordinary plain]
  by_cases completed : tfer.status = .completed
  · have done := done completed
    simp only [CompleteSequenceAwaitable.counted] at done
    simp only [completed, ne_eq, not_true_eq_false, if_false, ge_iff_le, done, if_true, cur]
    split
    · rfl
    · rw [whole]
  · simp only [ne_eq, completed, not_false_eq_true, if_true]

/-- A transfer that completes has moved all its bytes. -/
def FullCompletion (s : State SequenceState) : Event → Prop
  | .complete t c => c.status = .completed → (c.actualLength : Int) = (s.tfers t).length
  | _ => True

instance (s : State SequenceState) : ∀ e, Decidable (FullCompletion s e)
  | .complete _ _ => inferInstanceAs (Decidable (_ → _))
  | .suspend | .submit _ | .recordFailure | .leaveLoop | .callback _ | .proceed _ | .storeFailure | .requestStop
  | .cancel | .finishStop | .resume => isTrue trivial

theorem moved_whole (plain : q.NonIsochronous) (sizes : ∀ n ∈ q.sizes, n < 2 ^ 31)
    (full : (machine (sequenceAwaitable q) q).Meets FullCompletion (initial (sequenceAwaitable q) q) es)
    (h : (machine (sequenceAwaitable q) q).run (initial (sequenceAwaitable q) q) es = some s)
    (entered : s.callback = .entered t) (completed : (s.tfers t).status = .completed) :
    (s.tfers t).actualLength = q.sizes.getD (bufferOf s.tfers t) 0 := by
  obtain ⟨_, landed⟩ : Counted q s ∧
      Landed (fun tfer => tfer.status = .completed → (tfer.actualLength : Int) = tfer.length) s := by
    refine Machine.run_invariant_of_meets (I := fun s => Counted q s ∧
      Landed (fun tfer => tfer.status = .completed → (tfer.actualLength : Int) = tfer.length) s) ?_
      ⟨counted_initial _ q, ?_⟩
      h full
    · rintro s e s' ⟨counted, landed⟩ full step
      have step := step_cases step
      refine ⟨counted_step counted step, landed_step counted landed step ?_⟩
      rintro t c rfl _
      exact full
    · intro t flying
      simp [initial] at flying
  have inv := partial_run plain h
  have launched := (inv.counted.entered entered).2
  have length := inv.bounded.length (inv.counted.started_of_submitted launched) t (inv.counted.lt_used launched)
  have small : q.sizes.getD (bufferOf s.tfers t) 0 < 2 ^ 31 := by
    by_cases bound : bufferOf s.tfers t < q.sizes.length
    · exact sizes _ (by simp [bound])
    · simp [Nat.not_lt.mp bound]
  have whole := landed t (.inr entered) completed
  rw [length, toInt, Word.narrow_of_lt (by omega)] at whole
  exact_mod_cast whole

/-- The total of a completed transfer is at least the size of its last buffer. -/
theorem reaches (plain : q.NonIsochronous) (sizes : ∀ n ∈ q.sizes, n < 2 ^ 31) (small : q.sizes.sum < 2 ^ 64)
    (full : (machine (sequenceAwaitable q) q).Meets FullCompletion (initial (sequenceAwaitable q) q) es)
    (h : (machine (sequenceAwaitable q) q).run (initial (sequenceAwaitable q) q) es = some s)
    (h' : (machine (completeSequenceAwaitable q limit) q).run (initial (completeSequenceAwaitable q limit) q) es =
      some u)
    (same : s.observed (sequenceAwaitable q) = u.observed (completeSequenceAwaitable q limit))
    (entered : u.callback = .entered t) (completed : (u.tfers t).status = .completed) :
    (u.pump.states t).expected ≤ (CompleteSequenceAwaitable.counted u.pump t (u.tfers t)).total := by
  have callback : s.callback = u.callback := congrArg State.callback same
  have tfers : s.tfers = u.tfers := congrArg State.tfers same
  have log : s.log = u.log := congrArg State.log same
  obtain ⟨inv, expects⟩ := expects_run plain small h'
  obtain ⟨ordinary, n, totals, count⟩ :=
    tallied_run (completeSequenceAwaitable_tallies q limit) (completeSequenceAwaitable_regular q limit) plain h'
  have launched := (inv.counted.entered entered).2
  have used := inv.counted.lt_used launched
  have expected := expects (inv.counted.started_of_submitted launched) t used
  have moved := moved_whole plain sizes full h (callback.trans entered) (tfers ▸ completed)
  rw [tfers] at moved
  have room := countedBytes_le plain h
  rw [log, count, (credit_entered entered).1] at room
  have one := Finset.single_le_sum (f := fun v => (u.pump.states v).total) (fun _ _ => Nat.zero_le _)
    (Finset.mem_range.mpr used)
  rw [CompleteSequenceAwaitable.counted,
    CompleteSequenceAwaitable.subtotal_ordinary (ordinary.entered plain inv.counted entered),
    expected, ← moved]
  show _ ≤ sizeT ((u.pump.states t).total + (u.tfers t).actualLength)
  rw [sizeT, Word.wrap_of_lt (by omega)]
  omega

theorem agree_step {e : Event} (plain : q.NonIsochronous) (sizes : ∀ n ∈ q.sizes, n < 2 ^ 31)
    (small : q.sizes.sum < 2 ^ 64) (fits : ∀ n ∈ q.sizes, n ≤ limit)
    (full : (machine (sequenceAwaitable q) q).Meets FullCompletion (initial (sequenceAwaitable q) q) es)
    (h : (machine (sequenceAwaitable q) q).run (initial (sequenceAwaitable q) q) es = some s)
    (h' : (machine (completeSequenceAwaitable q limit) q).run (initial (completeSequenceAwaitable q limit) q) es =
      some u)
    (same : s.observed (sequenceAwaitable q) = u.observed (completeSequenceAwaitable q limit)) :
    (step (sequenceAwaitable q) q s e).map (State.observed (sequenceAwaitable q)) =
      (step (completeSequenceAwaitable q limit) q u e).map (State.observed (completeSequenceAwaitable q limit)) := by
  have cur : s.pump.bufCurrent = u.pump.bufCurrent := by
    have taken := (partial_run plain h).handed.takes
    have taken' := (complete_run plain small h').handed.takes
    have log : s.log = u.log := congrArg State.log same
    rw [← log, taken] at taken'
    simpa using congrArg List.length taken'
  have tfers : s.tfers = u.tfers := congrArg State.tfers same
  have callback : s.callback = u.callback := congrArg State.callback same
  refine step_observed same ?_ (fillLoop_observed fits q.positions same cur) fun t entered => ?_
  · show decide (s.pump.bufCurrent ≥ q.sizes.length) = decide (u.pump.bufCurrent ≥ q.sizes.length)
    rw [cur]
  · have entered' := callback.symm.trans entered
    obtain ⟨counted, ordinary, _⟩ := complete_run plain small h'
    have used := counted.lt_used (counted.running t (by rw [entered']; rfl)).2
    have type := ordinary.entered plain counted entered'
    have total : s.pump.total = (completeSequenceAwaitable q limit).total u.pump := congrArg State.pump same
    rw [tfers]
    refine ⟨process_agrees fits cur type (reaches plain sizes small full h h' same entered'), ?_⟩
    rw [(sequenceAwaitable_counts q).process _ t _ used type,
      (completeSequenceAwaitable_counts q limit).process _ t _ used type, ← total]
    rfl

/-- Without chunking and short completions complete I/O is partial I/O, step by step. -/
theorem complete_is_partial (q : Request) (limit : Nat) (es : List Event) (plain : q.NonIsochronous)
    (sizes : ∀ n ∈ q.sizes, n < 2 ^ 31) (small : q.sizes.sum < 2 ^ 64) (fits : ∀ n ∈ q.sizes, n ≤ limit)
    (full : (machine (sequenceAwaitable q) q).Meets FullCompletion (initial (sequenceAwaitable q) q) es) :
    ∀ fs, fs <+: es →
      ((machine (sequenceAwaitable q) q).run (initial (sequenceAwaitable q) q) fs).map
        (State.observed (sequenceAwaitable q)) =
        ((machine (completeSequenceAwaitable q limit) q).run (initial (completeSequenceAwaitable q limit) q) fs).map
          (State.observed (completeSequenceAwaitable q limit)) := by
  intro fs initially
  replace full := full.of_prefix initially
  clear initially
  induction fs using List.reverseRecOn with
  | nil =>
    have zero := (completeSequenceAwaitable_counts q limit).start
    simp only [Machine.run_nil, Option.map_some, State.observed, initial, zero]
    rfl
  | append_singleton fs e ih =>
    have before := full.of_prefix (List.prefix_append fs [e])
    have same := ih before
    rw [Machine.run_append_singleton, Machine.run_append_singleton]
    cases h : (machine (sequenceAwaitable q) q).run (initial (sequenceAwaitable q) q) fs with
    | none =>
      rw [h] at same
      rw [Option.map_eq_none_iff.mp same.symm]
      rfl
    | some s =>
      rw [h] at same
      obtain ⟨u, h', same⟩ := Option.map_eq_some_iff.mp same.symm
      rw [h']
      exact agree_step plain sizes small fits before h h' same.symm

theorem complete_is_partial_reused :
    ((machine (sequenceAwaitable reusedBulk) reusedBulk).run (initial (sequenceAwaitable reusedBulk) reusedBulk)
      bothAtOnce).map (State.observed (sequenceAwaitable reusedBulk)) =
      ((machine (completeSequenceAwaitable reusedBulk 4) reusedBulk).run
        (initial (completeSequenceAwaitable reusedBulk 4) reusedBulk) bothAtOnce).map
        (State.observed (completeSequenceAwaitable reusedBulk 4)) :=
  complete_is_partial reusedBulk 4 bothAtOnce reusedBulk_nonIsochronous (by decide) (by decide) (by decide) (by decide)
    bothAtOnce List.prefix_rfl

end

end CoUsb.Transfer

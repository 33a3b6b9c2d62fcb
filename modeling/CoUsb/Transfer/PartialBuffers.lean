import Mathlib.Algebra.Order.BigOperators.Group.List
import Mathlib.Algebra.Order.Group.Nat
import CoUsb.Transfer.ByteCount
import CoUsb.Transfer.Failure
import CoUsb.Transfer.Handing

/-!
# The buffers of a partial operation

Every buffer a partial operation hands out is submitted once and called back once, as long
as no error is stored; without an error all of them are handed out in the end.
-/

namespace CoUsb.Transfer

variable {q : Request} {s s' : State SequenceState} {e : Event} {es : List Event} {ec : ErrorCode} {t n : Nat}

/-- The transfers the operation waits for. -/
def pending (q : Request) (s : State SequenceState) : Finset Nat :=
  if s.started then unfinished q s else ∅

/-- The transfers that wait for their initial submission. -/
def waiting (q : Request) (s : State SequenceState) : Finset Nat :=
  if s.started then neverSubmitted q s else ∅

theorem pending_started (started : s.started = true) : pending q s = unfinished q s := if_pos started

theorem waiting_started (started : s.started = true) : waiting q s = neverSubmitted q s := if_pos started

theorem pending_congr (started : s'.started = s.started) (isOpen : ∀ t, s'.isOpen t ↔ s.isOpen t) :
    pending q s' = pending q s := by
  rw [pending, pending, started, unfinished_congr isOpen]

theorem pending_landed (counted : Counted q s) (landed : s.flight t = .completed) (started : s'.started = s.started)
    (flight : s'.flight = Function.update s.flight t .idle) (log : ∀ u, submitted s'.log u = submitted s.log u) :
    t ∈ pending q s ∧ pending q s' = (pending q s).erase t := by
  have launched := counted.flying t (by simp [landed])
  have now := counted.started_of_submitted launched
  rw [pending_started now, pending_started (started.trans now)]
  refine ⟨mem_unfinished.mpr ⟨counted.lt_used launched, Or.inl (by simp [landed])⟩, ?_⟩
  apply unfinished_close _ _ (by simp [State.isOpen, flight, log, launched])
  intro u different
  simp only [State.isOpen, flight, log, Function.update_of_ne different]

theorem not_pending (counted : Counted q s) (busy : s.callback.transfer = some t) : t ∉ pending q s := by
  obtain ⟨idle, launched⟩ := counted.running t busy
  rw [pending_started (counted.started_of_submitted launched), mem_unfinished]
  simp [State.isOpen, idle, launched]

theorem pending_relaunched (counted : Counted q s) (busy : s.callback.transfer = some t)
    (started : s'.started = s.started) (flight : s'.flight = Function.update s.flight t (.inFlight false))
    (log : ∀ u, submitted s'.log u = submitted s.log u) : pending q s' = insert t (pending q s) := by
  have launched := (counted.running t busy).2
  have now := counted.started_of_submitted launched
  rw [pending_started now, pending_started (started.trans now)]
  ext u
  rw [Finset.mem_insert, mem_unfinished, mem_unfinished, State.isOpen, State.isOpen, flight, log]
  by_cases same : u = t
  · subst u
    simp [counted.lt_used launched]
  · simp [same]

/-- Without an error, every buffer handed out was called back or is held, was submitted or
is waiting, and nothing failed. -/
structure Covered (q : Request) (s : State SequenceState) : Prop where
  called : Dispenser.Balanced ((callbacks s.log).map Action.buffer) (pending q s) (bufferOf s.tfers) s.pump.bufCurrent
  made : Dispenser.Balanced ((submissions s.log).map Action.buffer) (waiting q s) (bufferOf s.tfers) s.pump.bufCurrent
  accepted : ∀ a ∈ submissions s.log, ∃ origin t tfer, a = .submit origin t tfer 0
  completed : ∀ a ∈ callbacks s.log, ∃ t tfer seen, a = .callback t tfer seen ∧ seen.isError = false ∧
    (tfer.status = .completed ∨ s.callback = .entered t ∧ s.tfers t = tfer)

theorem Covered.of_frame (covered : Covered q s) (started : s'.started = s.started)
    (pump : s'.pump.bufCurrent = s.pump.bufCurrent)
    (buffers : ∀ t, bufferOf s'.tfers t = bufferOf s.tfers t) (isOpen : ∀ t, s'.isOpen t ↔ s.isOpen t)
    (launched : ∀ t, submitted s'.log t = submitted s.log t)
    (calls : callbacks s'.log = callbacks s.log) (submits : submissions s'.log = submissions s.log)
    (running : ∀ t tfer, s.callback = .entered t → s.tfers t = tfer →
      tfer.status = .completed ∨ s'.callback = .entered t ∧ s'.tfers t = tfer) : Covered q s' := by
  have same : pending q s' = pending q s ∧ waiting q s' = waiting q s := by
    simp only [pending, waiting, started, unfinished_congr isOpen, neverSubmitted_congr launched, and_self]
  obtain ⟨called, made, accepted, completed⟩ := covered
  refine ⟨?_, ?_, by rwa [submits], fun a member => ?_⟩
  · rw [calls, same.1, pump]
    exact (Dispenser.balanced_congr fun t _ => buffers t).mpr called
  · rw [submits, same.2, pump]
    exact (Dispenser.balanced_congr fun t _ => buffers t).mpr made
  · obtain ⟨t, tfer, seen, rfl, fine, state⟩ := completed a (calls ▸ member)
    exact ⟨t, tfer, seen, rfl, fine, state.elim Or.inl fun here => running t tfer here.1 here.2⟩

abbrev PartialHanded (q : Request) (s : State SequenceState) : Prop :=
  Handed q SequenceState.bufCurrent (fun _ _ _ => True) s

theorem covered_filled (counted : Counted q s) (handed : PartialHanded q s) (covered : Covered q s)
    (at_start : s.suspend = .start) :
    Covered q (s.fill (sequenceAwaitable q) q) := by
  have unstarted : s.started = false := by simp [State.started, at_start]
  have zero := handed.start unstarted
  have calls : callbacks s.log = [] := by
    have none := Dispenser.balanced_empty covered.called (by simp [pending, unstarted])
    rw [zero] at none
    exact List.map_eq_nil_iff.mp none.eq_nil
  have submits : submissions s.log = [] := by
    have none := Dispenser.balanced_empty covered.made (by simp [waiting, unstarted])
    rw [zero] at none
    exact List.map_eq_nil_iff.mp none.eq_nil
  obtain ⟨pump, _, assigned⟩ := fillLoop_assigns (sequenceAwaitable_sequential q) handed at_start
  obtain ⟨calls', submits'⟩ := callbacks_fillLoop (sequenceAwaitable q) q.positions s
  rw [calls] at calls'
  rw [submits] at submits'
  have launched : ∀ t, submitted (fillLoop (sequenceAwaitable q) q.positions s).log t = false := fun t =>
    (submitted_fillLoop ..).trans (counted.unlaunched unstarted t)
  have all : pending q (s.fill (sequenceAwaitable q) q) = Finset.range q.used :=
    Finset.filter_true_of_mem fun t _ => Or.inr (launched t)
  have none : waiting q (s.fill (sequenceAwaitable q) q) = Finset.range q.used :=
    Finset.filter_true_of_mem fun t _ => launched t
  have start : Dispenser.Balanced [] (Finset.range q.used)
      (bufferOf (fillLoop (sequenceAwaitable q) q.positions s).tfers)
      (fillLoop (sequenceAwaitable q) q.positions s).pump.bufCurrent := by
    rw [pump]
    exact (Dispenser.balanced_congr fun t used => (assigned t (Finset.mem_range.mp used)).1).mpr
      (Dispenser.balanced_start q.used)
  refine ⟨?_, ?_, by rw [submits']; simp, by rw [calls']; simp⟩
  · rw [calls', all]
    exact start
  · rw [submits', none]
    exact start

theorem covered_submit {i : Nat} (counted : Counted q s) (covered : Covered q s) (at_loop : s.suspend = .submitting i)
    (more : i ≠ q.used) :
    Covered q (s.launch i) := by
  obtain ⟨bound, launched⟩ := counted.submitting at_loop
  have started : s.started = true := by simp [State.started, at_loop]
  have absent := (counted.submitting at_loop).next
  obtain ⟨called, made, accepted, completed⟩ := covered
  rw [pending_started started] at called
  rw [waiting_started started] at made
  refine ⟨?_, ?_, ?_, by simpa [Action.isCallback] using completed⟩
  · have same : unfinished q (s.launch i) = unfinished q s := unfinished_congr fun t => by
      by_cases here : t = i
      · subst t; simp [State.isOpen, absent]
      · simp [State.isOpen, Function.update_of_ne here, Action.launches, Ne.symm here]
    rw [pending_started rfl, same]
    simpa [Action.isCallback] using called
  · have less : neverSubmitted q (s.launch i) = (neverSubmitted q s).erase i := by
      ext t
      by_cases here : t = i
      · subst t; simp [neverSubmitted, Action.launches]
      · simp [neverSubmitted, Action.launches, here, Ne.symm here]
    have member : i ∈ neverSubmitted q s := by
      simp only [neverSubmitted, Finset.mem_filter, Finset.mem_range, absent, and_true]
      omega
    rw [waiting_started rfl, less]
    simpa [Action.submits, Action.buffer, bufferOf] using made.give_back member
  · simp only [submissions_append, submissions_singleton, Action.submits, cond_true, List.mem_append,
      List.mem_singleton]
    rintro a (old | rfl)
    · exact accepted a old
    · exact ⟨_, _, _, rfl⟩

theorem covered_enter (counted : Counted q s) (covered : Covered q s) (free : s.callback = .idle)
    (landed : s.flight t = .completed) (fine : s.ec.isError = false) :
    Covered q (s.enter t) := by
  have launched := counted.flying t (by simp [landed])
  have started := counted.started_of_submitted launched
  obtain ⟨called, made, accepted, completed⟩ := covered
  rw [waiting_started started] at made
  refine ⟨?_, ?_, by simpa [Action.submits] using accepted, ?_⟩
  · obtain ⟨member, less⟩ : t ∈ pending q s ∧ pending q (s.enter t) = (pending q s).erase t :=
      pending_landed counted landed rfl rfl (by simp [Action.launches])
    rw [less]
    simpa [Action.isCallback, Action.buffer, bufferOf] using called.give_back member
  · have same : neverSubmitted q (s.enter t) = neverSubmitted q s := by
      simp [neverSubmitted, Action.launches]
    rw [waiting_started (by exact started), same]
    simpa [Action.submits] using made
  · simp only [callbacks_append, callbacks_singleton, Action.isCallback, cond_true, List.mem_append, List.mem_singleton]
    rintro a (old | rfl)
    · obtain ⟨u, tfer, seen, rfl, unfailed, state⟩ := completed a old
      exact ⟨u, tfer, seen, rfl, unfailed, Or.inl (state.resolve_right (by simp [free]))⟩
    · exact ⟨_, _, _, rfl, fine, Or.inr ⟨rfl, rfl⟩⟩

theorem covered_resubmit {pump : SequenceState} {fresh : Bool} {tfer : LibusbTransfer} (counted : Counted q s)
    (covered : Covered q s) (entered : s.callback = .entered t)
    (exit : (sequenceAwaitable q).process s.pump t (s.tfers t) = (pump, .submit fresh tfer)) :
    Covered q (s.resubmit t pump fresh tfer) := by
  have busy := busy_entered entered
  have launched := (counted.running t busy).2
  have started := counted.started_of_submitted launched
  obtain ⟨called, made, accepted, completed⟩ := covered
  rw [waiting_started started] at made
  obtain ⟨rfl, next, buffer, finished⟩ : fresh = true ∧ pump.bufCurrent = s.pump.bufCurrent + 1 ∧
      tfer.buffer.buffer = s.pump.bufCurrent ∧ (s.tfers t).status = .completed := by
    cases sequenceAwaitable_exit exit with
    | next finished => exact ⟨rfl, rfl, rfl, finished⟩
  have holds : bufferOf (Function.update s.tfers t tfer) = Function.update (bufferOf s.tfers) t s.pump.bufCurrent := by
    funext u
    by_cases same : u = t
    · subst u; simp [bufferOf, buffer]
    · simp [bufferOf, Function.update_of_ne same]
  have log := submitted_again launched true tfer 0
  refine ⟨?_, ?_, ?_, ?_⟩
  · have waits : pending q (s.resubmit t pump true tfer) = insert t (pending q s) :=
      pending_relaunched counted busy rfl rfl log
    rw [waits]
    dsimp only
    rw [holds, next]
    simpa only [if_true, callbacks_append, callbacks_singleton, Action.isCallback, cond_false, List.append_nil]
      using called.take (not_pending counted busy)
  · have outside : t ∉ neverSubmitted q s := by simp [neverSubmitted, launched]
    rw [waiting_started (by exact started), neverSubmitted_congr log]
    dsimp only
    rw [holds, next]
    simpa only [if_true, submissions_append, submissions_singleton, Action.submits, cond_true, cond_false,
      List.append_nil, List.map_append, List.map_cons, List.map_nil, Action.buffer, buffer] using made.pass outside
  · simp only [if_true, submissions_append, submissions_singleton, Action.submits, cond_true, cond_false,
      List.append_nil, List.mem_append, List.mem_singleton]
    rintro a (old | rfl)
    · exact accepted a old
    · exact ⟨_, _, _, rfl⟩
  · simp only [if_true, callbacks_append, callbacks_singleton, Action.isCallback, cond_false, List.append_nil]
    intro a member
    obtain ⟨u, tfer, seen, rfl, unfailed, state⟩ := completed a member
    refine ⟨u, tfer, seen, rfl, unfailed, Or.inl (state.elim id fun here => ?_)⟩
    obtain rfl := Callback.entered.inj (entered.symm.trans here.1)
    rw [← here.2, finished]

theorem covered_step (counted : Counted q s) (ordinary : Ordinary q s) (handed : PartialHanded q s)
    (covered : Covered q s) (step : Step (sequenceAwaitable q) q s e s') (clean : Clean s') : Covered q s' := by
  obtain ⟨fine, unfailing, running⟩ := clean
  cases step with
  | ready at_start =>
    exact covered.of_frame (by simp [State.started, at_start]) rfl (fun _ => rfl) (fun _ => Iff.rfl) (fun _ => rfl)
      rfl rfl fun _ _ h h' => Or.inr ⟨h, h'⟩
  | stopped => exact absurd fine (by simp [TransferStatus.code])
  | filled at_start => exact covered_filled counted handed covered at_start
  | submitOk i at_loop more => exact covered_submit counted covered at_loop more
  | submitFail i r => exact absurd rfl (running i r)
  | recordFailure i r failed =>
    have looped := counted.refused failed
    exact absurd fine (by simpa using looped.2.2)
  | leaveLoop at_end =>
    exact covered.of_frame (by simp [State.started, at_end]) rfl (fun _ => rfl) (fun _ => Iff.rfl) (fun _ => rfl)
      rfl rfl fun _ _ h h' => Or.inr ⟨h, h'⟩
  | complete u c cancelled flying =>
    refine covered.of_frame rfl rfl (bufferOf_finish s.tfers u c) (fun t => ?_) (fun _ => rfl) rfl rfl
      fun t tfer h h' => Or.inr ⟨h, ?_⟩
    · simp only [State.isOpen, ne_eq,
        update_idle_iff u t (by simp [flying] : Flight.completed = .idle ↔ s.flight u = .idle)]
    · have different : t ≠ u := counted.ne_of_flying flying (by rw [h]; rfl)
      exact (Function.update_of_ne different _ _).trans h'
  | drain _ _ _ failed => exact absurd fine (by simp [failed])
  | enter u free completed fine => exact covered_enter counted covered free completed fine
  | proceedResume u r pump entered exit =>
    cases sequenceAwaitable_exit exit with
    | finished completed =>
      refine covered.of_frame (started_congr (by simp)) (by simp) (by simp [bufferOf]) (by simp [State.isOpen])
        (by simp) (by simp) (by simp) fun t tfer h h' => Or.inl ?_
      obtain rfl := Callback.entered.inj (entered.symm.trans h)
      rw [← h', completed]
  | proceedFail u r pump ec => exact absurd rfl (unfailing u ec)
  | resubmitOk u pump fresh tfer entered exit => exact covered_resubmit counted covered entered exit
  | resubmitFail u r => exact absurd rfl (unfailing u (makeUsbErrorCode r))
  | storeFailure u ec failing => exact absurd fine (by simp [ordinary.error u ec failing])
  | cancel i =>
    refine covered.of_frame rfl rfl (fun _ => rfl) (fun t => ?_) (by simp [Action.launches])
      (by simp [Action.isCallback]) (by simp [Action.submits]) fun _ _ h h' => Or.inr ⟨h, h'⟩
    have same : (s.flight i).cancel = .idle ↔ s.flight i = .idle := by cases s.flight i <;> simp [Flight.cancel]
    simp only [State.isOpen, ne_eq, update_idle_iff i t same, submitted_append, submitted_singleton, Action.launches,
      Bool.or_false]
  | requestStop | finishStop | resume =>
    exact covered.of_frame rfl rfl (fun _ => rfl) (fun _ => Iff.rfl) (fun _ => rfl) rfl rfl
      fun _ _ h h' => Or.inr ⟨h, h'⟩

theorem covered_initial (q : Request) : Covered q (initial (sequenceAwaitable q) q) :=
  ⟨rfl, rfl, by simp [initial, submissions], by simp [initial, callbacks]⟩

/-! ### The sizes of the buffers -/

/-- No callback reports more bytes than its buffer has room for. -/
structure Bounded (q : Request) (s : State SequenceState) : Prop where
  length : s.started = true → ∀ t, t < q.used → (s.tfers t).length = toInt (q.sizes.getD (bufferOf s.tfers t) 0)
  bytes : ∀ a ∈ callbacks s.log, a.moved ≤ q.sizes.getD a.buffer 0

theorem Bounded.callback (bounded : Bounded q s) (counted : Counted q s) (ordinary : Ordinary q s)
    (landed : s.flight t = .completed) : (s.tfers t).actualLength ≤ q.sizes.getD (bufferOf s.tfers t) 0 := by
  have launched := counted.flying t (by simp [landed])
  have length := bounded.length (counted.started_of_submitted launched) t (counted.lt_used launched)
  have fits := ordinary.landed landed
  rw [length] at fits
  exact fits.trans (Word.narrow_toNat_le 32 _)

theorem bounded_bytes (counted : Counted q s) (ordinary : Ordinary q s) (bounded : Bounded q s)
    (step : Step (sequenceAwaitable q) q s e s') : ∀ a ∈ callbacks s'.log, a.moved ≤ q.sizes.getD a.buffer 0 := by
  intro a member
  rw [callbacks_step step, List.mem_append] at member
  rcases member with old | new
  · exact bounded.bytes a old
  · cases step with
    | drain t _ landed | enter t _ landed =>
      obtain rfl := List.mem_singleton.mp new
      exact bounded.callback counted ordinary landed
    | _ => cases new

theorem given_step {R : LibusbTransfer → Prop}
    (assigned : ∀ (j : Nat) (tfer : LibusbTransfer),
      R { tfer with buffer := (q.buffer j).data, length := toInt (q.buffer j).size })
    (finished : ∀ tfer c, R tfer → R (tfer.finish c)) (given : s.started = true → ∀ t, t < q.used → R (s.tfers t))
    (step : Step (sequenceAwaitable q) q s e s') : s'.started = true → ∀ t, t < q.used → R (s'.tfers t) := by
  cases step with
  | ready | stopped => intro now; cases now
  | filled =>
    intro _
    refine fillLoop_positions (P := sequenceAwaitable q) (I := fun a u => ∀ t, t < a → R (u.tfers t))
      (fun t h => absurd h (Nat.not_lt_zero t)) fun t u _ before v bound => ?_
    by_cases same : v = t
    · subst v
      simpa [fillRound, SequenceAwaitable.fill] using assigned u.pump.bufCurrent (u.tfers t)
    · simpa [fillRound, Function.update_of_ne same] using before v (by omega)
  | submitOk i at_loop | submitFail i r at_loop | recordFailure i r at_loop | leaveLoop at_loop =>
    exact fun _ => given (by simp [State.started, at_loop])
  | complete u c =>
    intro now t used
    by_cases same : t = u
    · subst u; simpa using finished (s.tfers t) c (given now t used)
    · simpa [Function.update_of_ne same] using given now t used
  | drain | proceedResume | storeFailure =>
    intro now t used
    rw [resumeOnZero_tfers]
    exact given ((started_congr (by simp)).symm.trans now) t used
  | resubmitOk u pump fresh tfer entered exit | resubmitFail u r pump fresh tfer entered failed exit =>
    intro now t used
    by_cases same : t = u
    · subst t
      cases sequenceAwaitable_exit exit with
      | next => simpa using assigned s.pump.bufCurrent (s.tfers u)
    · simpa [Function.update_of_ne same] using given now t used
  | enter | proceedFail | requestStop | cancel | finishStop | resume => exact given

/-- What the transfers are given holds of every submission. -/
theorem given_run {R : LibusbTransfer → Prop}
    (assigned : ∀ (j : Nat) (tfer : LibusbTransfer),
      R { tfer with buffer := (q.buffer j).data, length := toInt (q.buffer j).size })
    (finished : ∀ tfer c, R tfer → R (tfer.finish c))
    (h : (machine (sequenceAwaitable q) q).run (initial (sequenceAwaitable q) q) es = some s) :
    EachSubmission (fun _ _ tfer => R tfer) s.log := by
  have kept : Counted q s ∧ (s.started = true → ∀ t, t < q.used → R (s.tfers t)) ∧
      EachSubmission (fun _ _ tfer => R tfer) s.log := by
    refine Machine.run_invariant (I := fun s => Counted q s ∧ (s.started = true → ∀ t, t < q.used → R (s.tfers t)) ∧
      EachSubmission (fun _ _ tfer => R tfer) s.log) ?_
      ⟨counted_initial _ q, by simp [initial, State.started], Log.always_nil⟩ h
    rintro s e s' ⟨counted, given, each⟩ step
    have step := step_cases step
    refine ⟨counted_step counted step, given_step assigned finished given step,
      eachSubmission_step each step (fun i at_loop more => ?_) fun u pump fresh tfer entered exit => ?_⟩
    · have looped := counted.submitting at_loop
      exact given (by simp [State.started, at_loop]) i (lt_of_le_of_ne looped.1 more)
    · cases sequenceAwaitable_exit exit with
      | next => exact assigned s.pump.bufCurrent (s.tfers u)
  exact kept.2.2

theorem bounded_length (bounded : Bounded q s) (step : Step (sequenceAwaitable q) q s e s') :
    s'.started = true → ∀ t, t < q.used → (s'.tfers t).length = toInt (q.sizes.getD (bufferOf s'.tfers t) 0) :=
  given_step (R := fun tfer => tfer.length = toInt (q.sizes.getD tfer.buffer.buffer 0))
    (fun _ _ => rfl) (fun _ _ length => length) bounded.length step

/-! ### Runs -/

structure PartialInvariant (q : Request) (s : State SequenceState) : Prop where
  counted : Counted q s
  ordinary : Ordinary q s
  handed : PartialHanded q s
  bounded : Bounded q s
  busy : Clean s → Busy q SequenceState.bufCurrent s
  covered : Clean s → Covered q s

theorem partial_step (plain : q.NonIsochronous) (inv : PartialInvariant q s)
    (step : Step (sequenceAwaitable q) q s e s') : PartialInvariant q s' := by
  obtain ⟨counted, ordinary, handed, bounded, busy, covered⟩ := inv
  refine ⟨counted_step counted step, ordinary_step (sequenceAwaitable_regular q) plain counted ordinary step,
    handed_step (sequenceAwaitable_sequential q) counted handed step,
    ⟨bounded_length bounded step, bounded_bytes counted ordinary bounded step⟩, fun clean => ?_, fun clean => ?_⟩
  · have before := clean_of_step counted ordinary step clean
    exact busy_step (sequenceAwaitable_sequential q) counted ordinary (busy before) step clean
  · have before := clean_of_step counted ordinary step clean
    exact covered_step counted ordinary handed (covered before) step clean

theorem partial_run (plain : q.NonIsochronous)
    (h : (machine (sequenceAwaitable q) q).run (initial (sequenceAwaitable q) q) es = some s) : PartialInvariant q s :=
  Machine.run_invariant (fun inv step => partial_step plain inv (step_cases step))
    ⟨counted_initial _ q, ordinary_initial _ q, handed_initial (sequenceAwaitable_sequential q),
      ⟨by simp [initial, State.started], by simp [initial, callbacks]⟩,
      fun _ => by simp [Busy, initial, State.started], fun _ => covered_initial q⟩ h

theorem movedBytes_le (bounded : Bounded q s)
    (once : ((callbacks s.log).map Action.buffer).Perm (List.range q.sizes.length)) :
    movedBytes s.log ≤ q.sizes.sum := by
  calc movedBytes s.log
      ≤ ((callbacks s.log).map fun a => q.sizes.getD a.buffer 0).sum := List.sum_le_sum bounded.bytes
    _ = (((callbacks s.log).map Action.buffer).map fun j => q.sizes.getD j 0).sum := by rw [List.map_map]; rfl
    _ = ((List.range q.sizes.length).map fun j => q.sizes.getD j 0).sum := (once.map _).sum_eq
    _ = q.sizes.sum := q.sum_sizes

theorem countedBytes_clean (covered : Covered q s) : countedBytes s.log = movedBytes s.log := by
  refine congrArg List.sum (List.map_congr_left fun a member => ?_)
  obtain ⟨t, tfer, seen, rfl, fine, _⟩ := covered.completed a member
  simp [Action.counted, Action.moved, fine]

/-- What a partial operation that resumed without an error has done. -/
structure UsedEveryBufferOnce (q : Request) (log : List Action) (n : Nat) : Prop where
  submitted : ((submissions log).map Action.buffer).Perm (List.range q.sizes.length)
  accepted : ∀ a ∈ submissions log, ∃ origin t tfer, a = .submit origin t tfer 0
  /-- From the first byte of the buffer to the last, when an `int` can hold the length. -/
  whole : EachSubmission (fun _ _ tfer => tfer.buffer.offset = 0 ∧
    (q.sizes.getD tfer.buffer.buffer 0 < 2 ^ 31 → tfer.length = (q.sizes.getD tfer.buffer.buffer 0 : Nat))) log
  called : ((callbacks log).map Action.buffer).Perm (List.range q.sizes.length)
  completed : ∀ a ∈ callbacks log, ∃ t tfer seen, a = .callback t tfer seen ∧ tfer.status = .completed
  total : n = movedBytes log

theorem resumed_idle (h : (machine (sequenceAwaitable q) q).run (initial (sequenceAwaitable q) q) es = some s)
    (resumed : s.resumed = some (ec, n)) (fine : ec.isError = false) : Clean s ∧ pending q s = ∅ := by
  obtain ⟨counted, returned⟩ := returned_run h
  obtain ⟨rfl, _, resumable⟩ := returned.resumed ec n resumed
  refine ⟨(counted.over resumable).clean fine, ?_⟩
  rcases resumable with posted | direct
  · have settled := counted.settled posted
    rw [pending_started settled.started]
    exact Finset.filter_eq_empty_iff.mpr fun t used => settled.closed (Finset.mem_range.mp used)
  · have unstarted : s.started = false := by rcases direct with h | h <;> simp [State.started, h]
    simp [pending, unstarted]

/-- Without an error, every buffer handed out was called back once and all bytes count. -/
theorem resumed_covered (plain : q.NonIsochronous)
    (h : (machine (sequenceAwaitable q) q).run (initial (sequenceAwaitable q) q) es = some s)
    (resumed : s.resumed = some (ec, n)) (fine : ec.isError = false) :
    ((callbacks s.log).map Action.buffer).Perm (List.range s.pump.bufCurrent) ∧ n = sizeT (movedBytes s.log) := by
  obtain ⟨clean, rest⟩ := resumed_idle h resumed fine
  have covered := (partial_run plain h).covered clean
  refine ⟨Dispenser.balanced_empty covered.called rest, ?_⟩
  rw [resumed_count (sequenceAwaitable_counts q) (sequenceAwaitable_regular q) plain h resumed,
    countedBytes_clean covered]

theorem used_every_buffer (plain : q.NonIsochronous) (some_buffer : 0 < q.sizes.length)
    (some_transfer : 0 < q.transfers)
    (small : q.sizes.sum < 2 ^ 64)
    (h : (machine (sequenceAwaitable q) q).run (initial (sequenceAwaitable q) q) es = some s)
    (resumed : s.resumed = some (ec, n)) (fine : ec.isError = false) : UsedEveryBufferOnce q s.log n := by
  have unready : (sequenceAwaitable q).ready (sequenceAwaitable q).start = false :=
    decide_eq_false (Nat.not_le.mpr some_buffer)
  obtain ⟨called, total⟩ := resumed_covered plain h resumed fine
  obtain ⟨fine, _, settled⟩ := resumed_fine h unready resumed fine
  have inv := partial_run plain h
  have clean := settled.clean fine
  have covered := inv.covered clean
  have last := settled.exhausted (lt_min some_buffer some_transfer) (inv.busy clean)
  have rest : waiting q s = ∅ := by
    rw [waiting_started settled.started]
    exact Finset.filter_eq_empty_iff.mpr fun t used => by simp [settled.launched t (Finset.mem_range.mp used)]
  have made := Dispenser.balanced_empty covered.made rest
  rw [last] at called made
  have whole := given_run (R := fun tfer => tfer.buffer.offset = 0 ∧
    (q.sizes.getD tfer.buffer.buffer 0 < 2 ^ 31 → tfer.length = (q.sizes.getD tfer.buffer.buffer 0 : Nat)))
    (fun j _ => ⟨rfl, (toInt_eq_iff _).mpr⟩) (fun _ _ kept => kept) h
  refine ⟨made, covered.accepted, whole, called, fun a member => ?_, ?_⟩
  · obtain ⟨t, tfer, seen, rfl, _, state⟩ := covered.completed a member
    exact ⟨t, tfer, seen, rfl, state.resolve_right (by simp [settled.free])⟩
  · rw [total]
    exact Word.wrap_of_lt ((movedBytes_le inv.bounded called).trans_lt small)

/-- A partial operation hands its buffers out in order, no two transfers in flight hold the
same one, and if it resumes without an error it has used each of them exactly once. -/
theorem partial_operation_uses_every_buffer_once (q : Request) (es : List Event) (s : State SequenceState)
    (plain : q.NonIsochronous) (some_buffer : 0 < q.sizes.length) (some_transfer : 0 < q.transfers)
    (small : q.sizes.sum < 2 ^ 64)
    (h : (machine (sequenceAwaitable q) q).run (initial (sequenceAwaitable q) q) es = some s) :
    takes s.log = List.range s.pump.bufCurrent ∧ s.pump.bufCurrent ≤ q.sizes.length ∧
    (∀ t u, s.flight t ≠ .idle → s.flight u ≠ .idle → bufferOf s.tfers t = bufferOf s.tfers u → t = u) ∧
    (∀ ec n, s.resumed = some (ec, n) → ec.isError = false → UsedEveryBufferOnce q s.log n) := by
  obtain ⟨counted, _, handed, _, _, _⟩ := partial_run plain h
  refine ⟨handed.takes, handed.cur_le, fun t u first second same => ?_,
    fun ec n => used_every_buffer plain some_buffer some_transfer small h⟩
  have flying := counted.flying
  exact handed.exclusive (counted.started_of_submitted (flying t first)) (counted.lt_used (flying t first))
    (counted.lt_used (flying u second)) same

/-- Both transfers complete, the second one first and short. -/
def bothCallbacks : List Event :=
  [.suspend, .submit 0, .submit 0, .leaveLoop, .complete 1 ⟨.completed, 3, []⟩, .callback 1, .proceed 0,
    .complete 0 ⟨.completed, 4, []⟩, .callback 0, .proceed 0, .resume]

theorem partial_operation_uses_every_buffer_once_two_bulk :
    ∃ s, (machine (sequenceAwaitable twoBulk) twoBulk).run (initial (sequenceAwaitable twoBulk) twoBulk)
      bothCallbacks = some s ∧ UsedEveryBufferOnce twoBulk s.log 7 :=
  ⟨_, rfl, (partial_operation_uses_every_buffer_once twoBulk bothCallbacks _ twoBulk_nonIsochronous (by decide)
    (by decide) (by decide) rfl).2.2.2 {} 7 rfl rfl⟩

end CoUsb.Transfer

import CoUsb.Transfer.Failure

/-!
# The first failure

The stored error is that of the callback or submission that failed first, unless a submission of
`await_suspend` fails: its loop stores the result under the category of the transfer statuses, and
over any error that is there.
-/

namespace CoUsb.Transfer

variable {σ : Type} {P : Pump σ} {q : Request} {s s' : State σ} {e : Event} {es : List Event} {t : Nat}
  {ec : ErrorCode}

/-! ### Failures of a run -/

/-- The code of a callback or submission that fails, under the category it belongs to. -/
def Action.failure : Action → Option ErrorCode
  | .callback _ tfer _ => if tfer.status = .completed then none else some (makeTransferStatus tfer.status.code)
  | .submit _ _ _ r => if r = 0 then none else some (makeUsbErrorCode r)
  | .take _ _ | .cancel _ | .post => none

def failures (log : List Action) : List ErrorCode := log.filterMap Action.failure

/-- The code of the first failure, or none. -/
def firstFailure (log : List Action) : ErrorCode := (failures log).head?.getD {}

/-- A failure may have happened that is not stored yet. -/
def State.storing (s : State σ) : Prop := s.callback ≠ .idle ∨ ∃ i r, s.suspend = .failed i r

/-- An operation that finds a stop request reports that it was cancelled, and neither submits a
transfer nor is called back. Any other stores its first failure. -/
structure FirstFailureStored (s : State σ) : Prop where
  refused : s.suspend = .returnedHandle →
    s.ec = makeTransferStatus TransferStatus.cancelled.code ∧ failures s.log = []
  stored : s.suspend ≠ .returnedHandle → s.ec = firstFailure s.log ∨ s.ec = {} ∧ s.storing

/-- In every state of the run the first failure is stored, and it stays. -/
structure FirstFailureReported (P : Pump σ) (q : Request) (es : List Event) : Prop where
  stored : ∀ fs u, fs <+: es → (machine P q).run (initial P q) fs = some u → FirstFailureStored u
  kept : ∀ fs e u v, fs ++ [e] <+: es → (machine P q).run (initial P q) fs = some u →
    (machine P q).step u e = some v → u.ec.isError = true → v.ec = u.ec

/-- The submissions of `await_suspend` succeed. -/
def LoopSubmits (_ : State σ) : Event → Prop
  | .submit r => r = 0
  | _ => True

instance (s : State σ) : ∀ e, Decidable (LoopSubmits s e)
  | .submit r => inferInstanceAs (Decidable (r = 0))
  | .suspend | .recordFailure | .leaveLoop | .complete _ _ | .callback _ | .proceed _ | .storeFailure | .requestStop
  | .cancel | .finishStop | .resume => isTrue trivial

@[simp] theorem failures_append (log more : List Action) : failures (log ++ more) = failures log ++ failures more :=
  List.filterMap_append

@[simp] theorem failures_taken (fresh : Bool) (t j : Nat) : failures (if fresh then [.take t j] else []) = [] := by
  cases fresh <;> rfl

@[simp] theorem failures_resumeOnZero (s : State σ) : failures (resumeOnZero s).log = failures s.log := by
  rw [resumeOnZero_log, failures_append]
  split <;> exact List.append_nil _

theorem failures_callback (t : Nat) (tfer : LibusbTransfer) (seen : ErrorCode) :
    failures [.callback t tfer seen] =
      if tfer.status = .completed then [] else [makeTransferStatus tfer.status.code] := by
  simp only [failures, List.filterMap_cons, List.filterMap_nil, Action.failure]
  split <;> simp_all

theorem failures_submit (origin : Submitter) (t : Nat) (tfer : LibusbTransfer) (r : Int) :
    failures [.submit origin t tfer r] = if r = 0 then [] else [makeUsbErrorCode r] := by
  simp only [failures, List.filterMap_cons, List.filterMap_nil, Action.failure]
  split <;> simp_all

theorem failures_fillLoop (P : Pump σ) (ts : List Nat) (s : State σ) :
    failures (fillLoop P ts s).log = failures s.log := by
  obtain ⟨pump, tfers, takes, shape, same⟩ := fillLoop_frame P ts s
  have none : failures takes = [] := List.filterMap_eq_nil_iff.mpr fun a member => by
    obtain ⟨_, _, rfl⟩ := shape a member
    rfl
  rw [same, failures_append, none, List.append_nil]

theorem isError_failure {a : Action} (failed : a.failure = some ec) : ec.isError = true := by
  cases a with
  | callback t tfer seen =>
    simp only [Action.failure, Option.ite_none_left_eq_some, Option.some.injEq] at failed
    obtain ⟨incomplete, rfl⟩ := failed
    simpa [TransferStatus.code_eq_zero] using incomplete
  | submit origin t tfer r =>
    simp only [Action.failure, Option.ite_none_left_eq_some, Option.some.injEq] at failed
    obtain ⟨nonzero, rfl⟩ := failed
    simpa using nonzero
  | _ => cases failed

theorem isError_of_mem_failures {log : List Action} (member : ec ∈ failures log) : ec.isError = true := by
  obtain ⟨a, _, failed⟩ := List.mem_filterMap.mp member
  exact isError_failure failed

theorem failures_nil {log : List Action} (fine : (firstFailure log).isError = false) : failures log = [] := by
  cases all : failures log with
  | nil => rfl
  | cons first rest =>
    have member : first ∈ failures log := by simp [all]
    have error := isError_of_mem_failures member
    simp [firstFailure, all, error] at fine

theorem firstFailure_append {log more : List Action} (error : (firstFailure log).isError = true) :
    firstFailure (log ++ more) = firstFailure log := by
  cases all : failures log with
  | nil => simp [firstFailure, all] at error
  | cons first rest => simp [firstFailure, all]

theorem reported_ordinary {tfer : LibusbTransfer} (type : tfer.type ≠ .isochronous) : reported tfer = tfer.status := by
  unfold reported
  split
  case h_1 isochronous _ => exact absurd isochronous type
  case h_2 => rfl

/-! ### What each party is about to store -/

/-- The submission loop has met no failure, and the running callback found no error and brings the
first failure, if any. -/
structure Latching (s : State σ) : Prop where
  unfailed : ∀ i r, s.suspend ≠ .failed i r
  unstarted : s.started = false → failures s.log = []
  refused : s.suspend = .returnedHandle → s.ec = makeTransferStatus TransferStatus.cancelled.code
  idle : s.suspend ≠ .returnedHandle → s.callback = .idle → s.ec = firstFailure s.log
  entered : ∀ t, s.callback = .entered t → s.ec = {} ∧
    failures s.log = if (s.tfers t).status = .completed then [] else [makeTransferStatus (s.tfers t).status.code]
  failing : ∀ t ec, s.callback = .failing t ec → s.ec = {} ∧ failures s.log = [ec]

theorem Latching.stored (latching : Latching s) : FirstFailureStored s := by
  refine ⟨fun refused => ⟨latching.refused refused, latching.unstarted (by simp [State.started, refused])⟩,
    fun accepted => ?_⟩
  cases busy : s.callback with
  | idle => exact Or.inl (latching.idle accepted busy)
  | entered t => exact Or.inr ⟨(latching.entered t busy).1, Or.inl (by simp [busy])⟩
  | failing t ec => exact Or.inr ⟨(latching.failing t ec busy).1, Or.inl (by simp [busy])⟩

theorem Latching.of_frame (latching : Latching s) (unfailed : ∀ i r, s'.suspend ≠ .failed i r)
    (started : s'.started = false → s.started = false)
    (suspend : s'.suspend = .returnedHandle ↔ s.suspend = .returnedHandle) (callback : s'.callback = s.callback)
    (error : s'.ec = s.ec) (none : failures s'.log = failures s.log)
    (tfers : ∀ t, s.callback = .entered t → s'.tfers t = s.tfers t) : Latching s' := by
  obtain ⟨_, unstarted, refused, idle, entered, failing⟩ := latching
  refine ⟨unfailed, fun h => none.trans (unstarted (started h)), ?_, ?_, fun t h => ?_, ?_⟩
  · rwa [suspend, error]
  · rwa [ne_eq, suspend, callback, error, firstFailure, none]
  · rw [callback] at h
    rw [error, none, tfers t h]
    exact entered t h
  · rwa [callback, error, none]

theorem Latching.of_idle (latching : Latching s) (started : s.started = true) (suspend : s'.suspend = s.suspend)
    (callback : s'.callback = .idle) (stored : s'.ec = firstFailure s'.log) : Latching s' := by
  have now : s'.started = true := (started_congr suspend).trans started
  refine ⟨by simpa [suspend] using latching.unfailed, by simp [now], fun refused => ?_, fun _ _ => stored,
    by simp [callback], by simp [callback]⟩
  simp [State.started, refused] at now

theorem Latching.of_busy (latching : Latching s) (started : s.started = true) (suspend : s'.suspend = s.suspend)
    (busy : s'.callback ≠ .idle)
    (entered : ∀ t, s'.callback = .entered t → s'.ec = {} ∧ failures s'.log =
      if (s'.tfers t).status = .completed then [] else [makeTransferStatus (s'.tfers t).status.code])
    (failing : ∀ t ec, s'.callback = .failing t ec → s'.ec = {} ∧ failures s'.log = [ec]) : Latching s' := by
  have now : s'.started = true := (started_congr suspend).trans started
  refine ⟨by simpa [suspend] using latching.unfailed, by simp [now], fun refused => ?_,
    fun _ idle => absurd idle busy, entered, failing⟩
  simp [State.started, refused] at now

theorem Latching.fails {ec : ErrorCode} (regular : Regular P) (reports : Reports P) (plain : q.NonIsochronous)
    (counted : Counted q s) (ordinary : Ordinary q s) (latching : Latching s) (entered : s.callback = .entered t)
    (exit : (P.process s.pump t (s.tfers t)).2 = .fail ec) : s.ec = {} ∧ failures s.log = [ec] := by
  have type := ordinary.entered plain counted entered
  have failed := (regular.fails _ _ _ _ type exit).1
  obtain ⟨error, all⟩ := latching.entered t entered
  rw [if_neg failed] at all
  have report := reports s.pump t (s.tfers t) failed
  rw [exit, reported_ordinary type] at report
  exact ⟨error, by rw [all, Next.fail.inj report]⟩

theorem Latching.completes (reports : Reports P) (latching : Latching s) (entered : s.callback = .entered t)
    (exit : ∀ ec, (P.process s.pump t (s.tfers t)).2 ≠ .fail ec) : s.ec = {} ∧ failures s.log = [] := by
  obtain ⟨error, all⟩ := latching.entered t entered
  refine ⟨error, ?_⟩
  split at all
  case isTrue => exact all
  case isFalse failed => exact absurd (reports s.pump t (s.tfers t) failed) (exit _)

theorem latching_step (regular : Regular P) (reports : Reports P) (plain : q.NonIsochronous) (counted : Counted q s)
    (ordinary : Ordinary q s) (latching : Latching s) (submits : LoopSubmits s e) (step : Step P q s e s') :
    Latching s' := by
  have accepted : s.started = true → s.suspend ≠ .returnedHandle := fun h refused => by
    simp [State.started, refused] at h
  cases step with
  | ready at_start =>
    exact latching.of_frame (by simp) (by simp [State.started, at_start]) (by simp [at_start]) rfl rfl rfl
      fun _ _ => rfl
  | stopped at_start =>
    have unstarted : s.started = false := by simp [State.started, at_start]
    obtain ⟨free, _⟩ := counted.untouched unstarted
    exact ⟨by simp, fun _ => latching.unstarted unstarted, fun _ => rfl, by simp, by simp [free], by simp [free]⟩
  | filled at_start =>
    obtain ⟨free, _⟩ := counted.untouched (by simp [State.started, at_start])
    exact latching.of_frame (by simp) (by simp [State.started]) (by simp [at_start]) (by simp) (by simp)
      (failures_fillLoop P q.positions s) (by simp [free])
  | submitOk i at_loop =>
    exact latching.of_frame (by simp) (by simp [State.started]) (by simp [at_loop]) rfl rfl
      (by simp [failures_submit]) fun _ _ => rfl
  | submitFail i r at_loop more failed => exact absurd submits failed
  | recordFailure i r failed => exact absurd failed (latching.unfailed i r)
  | leaveLoop at_end =>
    exact latching.of_frame (by simp) (by simp [State.started]) (by simp [at_end]) rfl rfl rfl fun _ _ => rfl
  | complete u c cancelled flying =>
    refine latching.of_frame latching.unfailed id Iff.rfl rfl rfl rfl fun t entered => ?_
    exact Function.update_of_ne (counted.ne_of_flying flying (busy_entered entered)) _ _
  | drain t free completed error =>
    have started := counted.started_of_flying (by simp [completed] : s.flight t ≠ .idle)
    have first := latching.idle (accepted started) free
    apply latching.of_idle started (by simp) (by simpa using free)
    rw [resumeOnZero_ec, firstFailure, failures_resumeOnZero, ← firstFailure, firstFailure_append (first ▸ error)]
    exact first
  | enter t free completed fine =>
    have started := counted.started_of_flying (by simp [completed] : s.flight t ≠ .idle)
    have first := latching.idle (accepted started) free
    have none := failures_nil (first ▸ fine)
    have empty : s.ec = {} := by rw [first, firstFailure, none]; rfl
    refine latching.of_busy started rfl (by simp) (fun u h => ?_) (by simp)
    obtain rfl := Callback.entered.inj h
    exact ⟨empty, by rw [failures_append, none, failures_callback]; rfl⟩
  | proceedResume t r pump entered exit =>
    obtain ⟨error, none⟩ := latching.completes reports entered (by simp [exit])
    apply latching.of_idle (counted.started_of_busy (busy_entered entered)) (by simp) (by simp)
    rw [resumeOnZero_ec, firstFailure, failures_resumeOnZero, none]
    exact error
  | proceedFail t r pump ec entered exit =>
    have started := counted.started_of_busy (busy_entered entered)
    obtain ⟨error, all⟩ := latching.fails regular reports plain counted ordinary entered (by rw [exit])
    refine latching.of_busy started rfl (by simp) (by simp) fun u c h => ?_
    obtain ⟨rfl, rfl⟩ := Callback.failing.inj h
    exact ⟨error, all⟩
  | resubmitOk t pump fresh tfer entered exit =>
    obtain ⟨error, none⟩ := latching.completes reports entered (by simp [exit])
    refine latching.of_idle (counted.started_of_busy (busy_entered entered)) rfl rfl ?_
    simp only [firstFailure, failures_append, none, failures_taken, failures_submit]
    exact error
  | resubmitFail t r pump fresh tfer entered failed exit =>
    have started := counted.started_of_busy (busy_entered entered)
    obtain ⟨error, none⟩ := latching.completes reports entered (by simp [exit])
    refine latching.of_busy started rfl (by simp) (by simp) fun u c h => ?_
    obtain ⟨rfl, rfl⟩ := Callback.failing.inj h
    exact ⟨error, by simp [none, failures_submit, failed]⟩
  | storeFailure t ec failing =>
    obtain ⟨_, all⟩ := latching.failing t ec failing
    apply latching.of_idle (counted.started_of_busy (busy_failing failing)) (by simp) (by simp)
    rw [resumeOnZero_ec, firstFailure, failures_resumeOnZero, all]
    rfl
  | requestStop | finishStop | resume =>
    exact latching.of_frame latching.unfailed id Iff.rfl rfl rfl rfl fun _ _ => rfl
  | cancel i =>
    refine latching.of_frame latching.unfailed id Iff.rfl rfl rfl ?_ fun _ _ => rfl
    rw [failures_append]
    exact List.append_nil _

theorem kept_step (latching : Latching s) (counted : Counted q s) (step : Step P q s e s')
    (error : s.ec.isError = true) : s'.ec = s.ec := by
  cases step with
  | stopped at_start =>
    have unstarted : s.started = false := by simp [State.started, at_start]
    have first := latching.idle (by simp [at_start]) (counted.untouched unstarted).1
    rw [first, firstFailure, latching.unstarted unstarted] at error
    cases error
  | recordFailure i r failed => exact absurd failed (latching.unfailed i r)
  | storeFailure t ec failing =>
    rw [(latching.failing t ec failing).1] at error
    cases error
  | filled | drain | proceedResume => simp
  | _ => rfl

/-! ### Runs -/

theorem latching_initial (P : Pump σ) (q : Request) : Latching (initial P q) :=
  ⟨by simp [initial], fun _ => rfl, by simp [initial], fun _ _ => rfl, by simp [initial], by simp [initial]⟩

theorem latching_run (regular : Regular P) (reports : Reports P) (plain : q.NonIsochronous)
    (h : (machine P q).run (initial P q) es = some s) (submits : (machine P q).Meets LoopSubmits (initial P q) es) :
    Counted q s ∧ Ordinary q s ∧ Latching s := by
  refine Machine.run_invariant_of_meets (I := fun s => Counted q s ∧ Ordinary q s ∧ Latching s) ?_
    ⟨counted_initial P q, ordinary_initial P q, latching_initial P q⟩ h submits
  rintro s e s' ⟨counted, ordinary, latching⟩ submits step
  have step := step_cases step
  exact ⟨counted_step counted step, ordinary_step regular plain counted ordinary step,
    latching_step regular reports plain counted ordinary latching submits step⟩

theorem first_failure_reported (regular : Regular P) (reports : Reports P) (plain : q.NonIsochronous)
    (submits : (machine P q).Meets LoopSubmits (initial P q) es) : FirstFailureReported P q es := by
  constructor
  · intro fs u before reached
    exact (latching_run regular reports plain reached (submits.of_prefix before)).2.2.stored
  · intro fs e u v before reached step error
    have earlier := submits.of_prefix ((List.prefix_append fs [e]).trans before)
    obtain ⟨counted, _, latching⟩ := latching_run regular reports plain reached earlier
    exact kept_step latching counted (step_cases step) error

/-- What the loop stores is no code of a callback, whose statuses are positive. -/
theorem stored_by_loop {log : List Action} {r : Int} (negative : r < 0) :
    makeTransferStatus r ≠ firstFailure log := by
  intro same
  cases all : failures log with
  | nil => simp [firstFailure, all, makeTransferStatus] at same
  | cons first rest =>
    have member : makeTransferStatus r ∈ failures log := by
      simp only [firstFailure, all, List.head?_cons, Option.getD_some] at same
      simp [all, same]
    obtain ⟨a, _, failed⟩ := List.mem_filterMap.mp member
    cases a with
    | callback t tfer seen =>
      simp only [Action.failure, Option.ite_none_left_eq_some, Option.some.injEq] at failed
      have code : tfer.status.code = r := congrArg ErrorCode.value failed.2
      have positive : 0 ≤ tfer.status.code := by cases tfer.status <;> decide
      omega
    | submit origin t tfer r' =>
      simp only [Action.failure, Option.ite_none_left_eq_some, Option.some.injEq] at failed
      exact absurd (congrArg ErrorCode.category failed.2) (by simp [makeUsbErrorCode, makeTransferStatus])
    | _ => cases failed

theorem failed_step {i : Nat} {r : Int} (failed : s.suspend = .failed i r) (step : Step P q s e s') :
    s'.suspend = .failed i r ∨ s'.suspend = .returnedNoop ∧ s'.ec = makeTransferStatus r := by
  cases step with
  | ready at_start | stopped at_start | filled at_start => simp [failed] at at_start
  | submitOk i at_loop | submitFail i r at_loop => simp [failed] at at_loop
  | leaveLoop at_end => simp [failed] at at_end
  | recordFailure j r' failed' =>
    obtain ⟨-, rfl⟩ := Suspend.failed.inj (failed'.symm.trans failed)
    exact Or.inr ⟨rfl, rfl⟩
  | drain | proceedResume | storeFailure => exact Or.inl (by simpa using failed)
  | _ => exact Or.inl failed

theorem loop_submits_of_reported (h : (machine P q).run (initial P q) es = some s)
    (stored : ∀ i r, s.suspend ≠ .failed i r) (negative : ∀ r, .submit r ∈ es → r ≤ 0)
    (reported : FirstFailureReported P q es) : (machine P q).Meets LoopSubmits (initial P q) es := by
  by_contra fails
  obtain ⟨fs, e, rest, u, v, rfl, first, broken, step, later⟩ := Machine.exists_of_not_meets h fails
  cases e with
  | submit r =>
    have below : r < 0 := lt_of_le_of_ne (negative r (by simp)) broken
    have failed : ∃ i, v.suspend = .failed i r := by
      cases step_cases step with
      | submitOk => exact absurd rfl broken
      | submitFail i => exact ⟨i, rfl⟩
    obtain ⟨i, failed⟩ := failed
    obtain ⟨gs, f, rest', y, z, rfl, reached, here, last, left⟩ :=
      Machine.exists_leaving (I := fun x => x.suspend = .failed i r) failed later (stored i r)
    obtain ⟨noop, wrong⟩ := (failed_step here (step_cases last)).resolve_left left
    have whole : (machine P q).run (initial P q) (fs ++ .submit r :: (gs ++ [f])) = some z :=
      Machine.run_append_some.mpr ⟨u, first, Machine.run_cons.mpr ⟨v, step, Machine.run_concat.mpr ⟨y, reached, last⟩⟩⟩
    rcases (reported.stored _ z ⟨rest', by simp⟩ whole).stored (by simp [noop]) with same | ⟨none, _⟩
    · exact stored_by_loop below (wrong.symm.trans same)
    · rw [wrong] at none
      exact absurd (congrArg ErrorCode.category none) (by simp [makeTransferStatus])
  | _ => exact broken trivial

/-- For both awaitables: a run in which every submission of `await_suspend` succeeds stores its first
failure and keeps it; with the negative codes of libusb no other run does, once its loop has stored
the result. -/
theorem first_failure_reported_iff (q : Request) (limit : Nat) (es : List Event) (plain : q.NonIsochronous) :
    (∀ s, (machine (sequenceAwaitable q) q).run (initial (sequenceAwaitable q) q) es = some s →
      ((machine (sequenceAwaitable q) q).Meets LoopSubmits (initial (sequenceAwaitable q) q) es →
        FirstFailureReported (sequenceAwaitable q) q es) ∧
      ((∀ i r, s.suspend ≠ .failed i r) → (∀ r, .submit r ∈ es → r ≤ 0) →
        FirstFailureReported (sequenceAwaitable q) q es →
        (machine (sequenceAwaitable q) q).Meets LoopSubmits (initial (sequenceAwaitable q) q) es)) ∧
    (∀ s, (machine (completeSequenceAwaitable q limit) q).run (initial (completeSequenceAwaitable q limit) q) es =
      some s →
      ((machine (completeSequenceAwaitable q limit) q).Meets LoopSubmits
          (initial (completeSequenceAwaitable q limit) q) es →
        FirstFailureReported (completeSequenceAwaitable q limit) q es) ∧
      ((∀ i r, s.suspend ≠ .failed i r) → (∀ r, .submit r ∈ es → r ≤ 0) →
        FirstFailureReported (completeSequenceAwaitable q limit) q es →
        (machine (completeSequenceAwaitable q limit) q).Meets LoopSubmits
          (initial (completeSequenceAwaitable q limit) q) es)) :=
  ⟨fun _ h => ⟨first_failure_reported (sequenceAwaitable_regular q) (sequenceAwaitable_reports q) plain,
      loop_submits_of_reported h⟩,
    fun _ h => ⟨first_failure_reported (completeSequenceAwaitable_regular q limit)
        (completeSequenceAwaitable_reports q limit) plain,
      loop_submits_of_reported h⟩⟩

def submissionFails : List Event := [.suspend, .submit (-4), .recordFailure]

theorem submission_failure_not_reported :
    ¬ FirstFailureReported (sequenceAwaitable oneBulk) oneBulk submissionFails ∧
    ¬ FirstFailureReported (completeSequenceAwaitable oneBulk 4) oneBulk submissionFails := by
  constructor <;> intro reported
  all_goals
    rcases (reported.stored submissionFails _ List.prefix_rfl rfl).stored (by decide) with same | ⟨none, _⟩
    · exact absurd same (by decide)
    · exact absurd none (by decide)

theorem first_failure_reported_iff_one_bulk :
    FirstFailureReported (sequenceAwaitable oneBulk) oneBulk oneCallback ∧
    ¬ (machine (completeSequenceAwaitable oneBulk 4) oneBulk).Meets LoopSubmits
      (initial (completeSequenceAwaitable oneBulk 4) oneBulk) submissionFails :=
  ⟨((first_failure_reported_iff oneBulk 4 oneCallback (by simp [Request.NonIsochronous, oneBulk])).1 _ rfl).1
      (by decide),
    fun submits => submission_failure_not_reported.2
      (((first_failure_reported_iff oneBulk 4 submissionFails (by simp [Request.NonIsochronous, oneBulk])).2 _ rfl).1
        submits)⟩

/-- `LIBUSB_ERROR_NO_DEVICE` is reported as a transfer status that does not exist. -/
theorem submission_failure_in_wrong_category :
    (∃ s, (machine (sequenceAwaitable oneBulk) oneBulk).run (initial (sequenceAwaitable oneBulk) oneBulk)
      submissionFails = some s ∧ s.ec = ⟨-4, .transferStatus⟩ ∧
      ¬ FirstFailureReported (sequenceAwaitable oneBulk) oneBulk submissionFails) ∧
    (∃ s, (machine (completeSequenceAwaitable oneBulk 4) oneBulk).run
      (initial (completeSequenceAwaitable oneBulk 4) oneBulk) submissionFails = some s ∧
      s.ec = ⟨-4, .transferStatus⟩ ∧
      ¬ FirstFailureReported (completeSequenceAwaitable oneBulk 4) oneBulk submissionFails) :=
  ⟨⟨_, rfl, rfl, submission_failure_not_reported.1⟩, ⟨_, rfl, rfl, submission_failure_not_reported.2⟩⟩

end CoUsb.Transfer

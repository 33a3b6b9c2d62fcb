import CoUsb.Transfer.ReadPrefix
import CoUsb.Transfer.Windows

/-!
# Control requests under complete I/O

The length of a control transfer includes its setup packet, the bytes it reports do not. Its total
never reaches the size of its buffer, so the callback submits it again and again.
-/

namespace CoUsb.Transfer

variable {q : Request} {limit : Nat} {s s' : State CompleteState} {e : Event} {es : List Event} {t j n : Nat}
  {ec : ErrorCode}

/-! ### Whole requests -/

/-- Control transfers and buffers that hold a setup packet and some data. -/
structure Request.Control (q : Request) : Prop where
  type : ∀ t, t < q.transfers → (q.prefilled t).type = .control
  transfers : 0 < q.transfers
  sizes : ∀ n ∈ q.sizes, controlSetupSize ≤ n

/-- A transfer completes, and reports the bytes of its data stage. -/
def DataStage (s : State CompleteState) : Event → Prop
  | .complete t c => c.status = .completed ∧ c.actualLength ≤ (s.tfers t).length.toNat - controlSetupSize
  | _ => True

instance (s : State CompleteState) : ∀ e, Decidable (DataStage s e)
  | .complete _ _ => inferInstanceAs (Decidable (_ ∧ _))
  | .suspend | .submit _ | .recordFailure | .leaveLoop | .callback _ | .proceed _ | .storeFailure | .requestStop
  | .cancel | .finishStop | .resume => isTrue trivial

/-- Every submission is a whole request, every request was submitted once, and no error is reported. -/
structure WholeRequests (q : Request) (s : State CompleteState) : Prop where
  whole : ∀ origin t tfer r, .submit origin t tfer r ∈ s.log →
    tfer.buffer.offset = 0 ∧ tfer.length = ((q.sizes.getD tfer.buffer.buffer 0 : Nat) : Int)
  once : ∀ j, j < q.sizes.length → submissionsOf s.log j = 1
  fine : ∀ ec n, s.resumed = some (ec, n) → ec.isError = false

theorem Request.Control.nonIsochronous (control : q.Control) : q.NonIsochronous := fun t used => by
  simp [control.type t used]

theorem Request.Control.size (control : q.Control) (bound : j < q.sizes.length) :
    controlSetupSize ≤ q.sizes.getD j 0 :=
  control.sizes _ (by simp [bound])

/-! ### Totals that stay behind -/

def InData (tfer : LibusbTransfer) : Prop :=
  tfer.status = .completed ∧ tfer.actualLength ≤ tfer.length.toNat - controlSetupSize

/-- The total of a transfer and the data it asks for fit behind a setup packet, and nothing but an
error resumes the coroutine. -/
structure Lagging (q : Request) (s : State CompleteState) : Prop where
  unstarted : s.started = false → ∀ t, (s.pump.states t).total = 0
  working : ∀ t, Working q s t → (s.pump.states t).expected = q.sizes.getD (bufferOf s.tfers t) 0 ∧
    (s.pump.states t).total + ((s.tfers t).length.toNat - controlSetupSize) + controlSetupSize ≤
      q.sizes.getD (bufferOf s.tfers t) 0
  posted : 0 < s.posted → s.ec.isError = true

theorem Lagging.of_frame (lagging : Lagging q s) (started : s'.started = false → s.started = false)
    (working : ∀ t, Working q s' t → Working q s t) (pump : s'.pump = s.pump)
    (tfers : ∀ t, (s'.tfers t).buffer = (s.tfers t).buffer ∧ (s'.tfers t).length = (s.tfers t).length)
    (posted : 0 < s'.posted → s'.ec.isError = true) : Lagging q s' := by
  refine ⟨fun h => by rw [pump]; exact lagging.unstarted (started h), fun t h => ?_, posted⟩
  rw [pump, bufferOf, (tfers t).1, (tfers t).2]
  exact lagging.working t (working t h)

theorem Lagging.again {pump : CompleteState} {next : Next} (control : q.Control) (counted : Counted q s)
    (ordinary : Ordinary q s) (handed : CompleteHanded q s) (inData : Landed InData s) (lagging : Lagging q s)
    (entered : s.callback = .entered t)
    (exit : (completeSequenceAwaitable q limit).process s.pump t (s.tfers t) = (pump, next)) :
    ∃ tfer prg, next = .submit false tfer ∧ pump.states = Function.update s.pump.states t prg ∧
      tfer.buffer.buffer = bufferOf s.tfers t ∧ prg.expected = q.sizes.getD (bufferOf s.tfers t) 0 ∧
      prg.total + (tfer.length.toNat - controlSetupSize) + controlSetupSize ≤
        q.sizes.getD (bufferOf s.tfers t) 0 := by
  have working := working_entered counted entered
  have type := ordinary.entered control.nonIsochronous counted entered
  have subtotal := CompleteSequenceAwaitable.subtotal_ordinary type
  have none := CompleteSequenceAwaitable.failure_ordinary type
  have bound := (handed.buffer_lt working.1 working.2.1).trans_le handed.cur_le
  have aligned : (s.pump.states t).ptr.buffer = bufferOf s.tfers t := handed.aligned working.1 t working.2.1
  have small := q.size_lt (bufferOf s.tfers t)
  obtain ⟨completed, moved⟩ := inData t (Or.inr entered)
  obtain ⟨expected, room⟩ := lagging.working t working
  have exact : (CompleteSequenceAwaitable.counted s.pump t (s.tfers t)).total =
      (s.pump.states t).total + (s.tfers t).actualLength := by
    rw [CompleteSequenceAwaitable.counted, subtotal]
    exact Word.wrap_of_lt (by omega)
  have setup : 0 < controlSetupSize := Nat.succ_pos 7
  cases completeSequenceAwaitable_exit exit with
  | failed ec reason =>
    rcases reason with failed | ⟨_, failed, _⟩
    · simp [none] at failed
    · exact absurd completed failed
  | finished _ done | next _ done => omega
  | again _ short =>
    refine ⟨_, _, rfl, rfl, aligned, expected, ?_⟩
    have left := toInt_min_le (Word.sub 64 (s.pump.states t).expected
      (CompleteSequenceAwaitable.counted s.pump t (s.tfers t)).total) limit
    rw [Word.sub_of_le short.le (expected ▸ small)] at left ⊢
    dsimp only
    omega

theorem lagging_filled (handed : CompleteHanded q s) (lagging : Lagging q s) (sizes : q.Control)
    (at_start : s.suspend = .start) (none : s.posted = 0) :
    Lagging q (s.fill (completeSequenceAwaitable q limit) q) := by
  have zero := lagging.unstarted (by simp [State.started, at_start])
  refine ⟨by simp [State.started], fun t working => ?_, fun posted => ?_⟩
  · obtain ⟨_, prg, given⟩ := fillLoop_zero limit handed at_start zero working.2.1
    have size := sizes.size (working.2.1.trans_le q.used_le_length)
    have length := toInt_min_le (q.buffer t).size limit
    dsimp only
    rw [prg, bufferOf, given]
    refine ⟨rfl, ?_⟩
    simp only [Request.buffer] at length ⊢
    omega
  · rw [fillLoop_posted, none] at posted
    cases posted

theorem lagging_step (control : q.Control) (counted : Counted q s) (ordinary : Ordinary q s)
    (handed : CompleteHanded q s) (inData : Landed InData s) (lagging : Lagging q s)
    (step : Step (completeSequenceAwaitable q limit) q s e s') : Lagging q s' := by
  have before := fun (begun : s.suspend ≠ .start) t => working_before (t := t) counted step begun
  have posted : ∀ u : State CompleteState, u.posted = s.posted → u.ec = s.ec →
      0 < u.posted → u.ec.isError = true := by
    intro u same error more
    rw [error]
    exact lagging.posted (same ▸ more)
  cases step with
  | ready at_start =>
    exact lagging.of_frame (fun _ => by simp [State.started, at_start])
      (fun t h => absurd h.1 (by simp [State.started])) rfl (fun _ => ⟨rfl, rfl⟩) (posted _ rfl rfl)
  | stopped at_start =>
    exact lagging.of_frame (fun _ => by simp [State.started, at_start])
      (fun t h => absurd h.1 (by simp [State.started])) rfl (fun _ => ⟨rfl, rfl⟩)
      fun _ => (isError_makeTransferStatus _).mpr (by decide)
  | filled at_start =>
    exact lagging_filled handed lagging control at_start (counted.unstarted (by simp [State.started, at_start])).2
  | submitOk i at_loop | submitFail i r at_loop | leaveLoop at_loop =>
    exact lagging.of_frame (by simp [State.started]) (before (by simp [at_loop])) rfl (fun _ => ⟨rfl, rfl⟩)
      (posted _ rfl rfl)
  | recordFailure i r failed =>
    have looped := counted.refused failed
    exact lagging.of_frame (by simp [State.started]) (before (by simp [failed])) rfl (fun _ => ⟨rfl, rfl⟩)
      fun _ => (isError_makeTransferStatus r).mpr looped.2.2
  | complete u c cancelled flying =>
    exact lagging.of_frame id (before (counted.begun_of_flying u (by simp [flying]))) rfl (finish_window s.tfers u c)
      (posted _ rfl rfl)
  | drain u _ landed failed =>
    have begun := counted.begun_of_flying u (by simp [landed])
    exact lagging.of_frame (fun h => (started_congr (by simp)).symm.trans h) (before begun) (by simp) (by simp)
      fun _ => by simpa using failed
  | enter u _ landed =>
    have begun := counted.begun_of_flying u (by simp [landed])
    exact lagging.of_frame id (before begun) rfl (fun _ => ⟨rfl, rfl⟩) (posted _ rfl rfl)
  | proceedResume u r pump entered exit | proceedFail u r pump ec entered exit =>
    obtain ⟨_, _, again, _⟩ := lagging.again control counted ordinary handed inData entered exit
    cases again
  | resubmitOk u pump fresh tfer entered exit | resubmitFail u r pump fresh tfer entered failed exit =>
    obtain ⟨tfer', prg, again, states, buffer, expected, room⟩ :=
      lagging.again control counted ordinary handed inData entered exit
    obtain ⟨rfl, rfl⟩ := Next.submit.inj again
    have started := (working_entered counted entered).1
    refine ⟨fun h => absurd (started.symm.trans h) (by simp), fun t h => ?_, posted _ rfl rfl⟩
    dsimp only
    rw [states]
    by_cases same : t = u
    · subst t
      rw [Function.update_self, Function.update_self, bufferOf_update_self, buffer]
      exact ⟨expected, room⟩
    · rw [Function.update_of_ne same, Function.update_of_ne same, bufferOf_update_of_ne same]
      exact lagging.working t (before (counted.begun_of_busy (busy_entered entered)) t h)
  | storeFailure u ec failing =>
    have started := counted.started_of_busy (busy_failing failing)
    refine lagging.of_frame (fun h => (started_congr (by simp)).symm.trans h)
      (before fun at_start => by simp [State.started, at_start] at started) (by simp) (by simp) fun _ => ?_
    simpa using ordinary.error u ec failing
  | cancel i =>
    refine lagging.of_frame id (fun t h => ?_) rfl (fun _ => ⟨rfl, rfl⟩) (posted _ rfl rfl)
    exact before (fun at_start => absurd h.1 (by simp [State.started, at_start])) t h
  | requestStop | finishStop | resume =>
    exact lagging.of_frame id (fun _ h => h) rfl (fun _ => ⟨rfl, rfl⟩) (posted _ rfl rfl)

/-! ### Runs -/

structure ControlInvariant (q : Request) (s : State CompleteState) : Prop where
  counted : Counted q s
  ordinary : Ordinary q s
  handed : CompleteHanded q s
  inData : Landed InData s
  lagging : Lagging q s

theorem control_step (control : q.Control) (inv : ControlInvariant q s) (data : DataStage s e)
    (step : Step (completeSequenceAwaitable q limit) q s e s') : ControlInvariant q s' := by
  obtain ⟨counted, ordinary, handed, inData, lagging⟩ := inv
  refine ⟨counted_step counted step,
    ordinary_step (completeSequenceAwaitable_regular q limit) control.nonIsochronous counted ordinary step,
    handed_step (completeSequenceAwaitable_sequential q limit) counted handed step,
    landed_step counted inData step ?_, lagging_step control counted ordinary handed inData lagging step⟩
  rintro t c rfl _
  exact data

theorem control_run (control : q.Control)
    (data : (machine (completeSequenceAwaitable q limit) q).Meets DataStage
      (initial (completeSequenceAwaitable q limit) q) es)
    (h : (machine (completeSequenceAwaitable q limit) q).run (initial (completeSequenceAwaitable q limit) q) es =
      some s) : ControlInvariant q s := by
  refine Machine.run_invariant_of_meets (fun inv data step => control_step control inv data (step_cases step)) ?_ h data
  exact ⟨counted_initial _ q, ordinary_initial _ q, handed_initial (completeSequenceAwaitable_sequential q limit),
    by simp [Landed, initial],
    fun _ _ => rfl, fun t working => absurd working.1 (by simp [initial, State.started]), by simp [initial]⟩

/-! ### Requests submitted again -/

/-- The first callback that finds no error submits a request a second time. -/
theorem proceed_submits_again {r : Int} (control : q.Control) (inv : ControlInvariant q s) (requested : Requested s)
    (step : Step (completeSequenceAwaitable q limit) q s (.proceed r) s') :
    ∃ j, j < q.sizes.length ∧ 1 < submissionsOf s'.log j := by
  obtain ⟨counted, ordinary, handed, inData, lagging⟩ := inv
  have running : ∃ t, s.callback = .entered t := by cases step <;> exact ⟨_, ‹s.callback = .entered _›⟩
  obtain ⟨t, entered⟩ := running
  obtain ⟨now, used, _⟩ := working_entered counted entered
  have launched := (counted.entered entered).2
  rcases exit : (completeSequenceAwaitable q limit).process s.pump t (s.tfers t) with ⟨pump, next⟩
  obtain ⟨tfer, _, rfl, _, buffer, _⟩ := lagging.again control counted ordinary handed inData entered exit
  have first := requested t launched
  refine ⟨bufferOf s.tfers t, (handed.buffer_lt now used).trans_le handed.cur_le, ?_⟩
  rw [submissionsOf_step step]
  simp only [made, entered, exit, List.map_cons, List.map_nil, Action.buffer, buffer, List.count_singleton_self]
  omega

/-! ### Operations that have ended -/

theorem resumed_failed (control : q.Control) (some_buffer : q.sizes ≠ [])
    (data : (machine (completeSequenceAwaitable q limit) q).Meets DataStage
      (initial (completeSequenceAwaitable q limit) q) es)
    (h : (machine (completeSequenceAwaitable q limit) q).run (initial (completeSequenceAwaitable q limit) q) es =
      some s) (resumed : s.resumed = some (ec, n)) : ec.isError = true := by
  obtain ⟨_, returned⟩ := returned_run h
  obtain ⟨rfl, _, posted | stopped | direct⟩ := returned.resumed ec n resumed
  · exact (control_run control data h).lagging.posted posted
  · rw [returned.stopped stopped]
    rfl
  · have ready := returned.ready direct
    simp only [completeSequenceAwaitable, ge_iff_le, Nat.le_zero_eq, List.length_eq_zero_iff,
      decide_eq_true_eq] at ready
    exact absurd ready some_buffer

/-- With no buffer `await_ready` lets the coroutine go on at once. -/
structure Untouched (s : State CompleteState) : Prop where
  suspend : s.suspend = .start ∨ s.suspend = .notSuspended
  ec : s.ec = {}
  log : submissions s.log = []

theorem untouched_step (empty : q.sizes = []) (counted : Counted q s) (untouched : Untouched s)
    (step : Step (completeSequenceAwaitable q limit) q s e s') : Untouched s' := by
  obtain ⟨suspend, ec, log⟩ := untouched
  have unstarted : s.started = false := by rcases suspend with h | h <;> simp [State.started, h]
  obtain ⟨free, still⟩ := counted.untouched unstarted
  have ready : ∀ p, (completeSequenceAwaitable q limit).ready p = true := by
    intro p
    simp [completeSequenceAwaitable, empty]
  cases step with
  | ready => exact ⟨Or.inr rfl, ec, log⟩
  | stopped _ unready | filled _ unready => exact absurd (ready s.pump) (by simp [unready])
  | submitOk i at_loop | submitFail i r at_loop | recordFailure i r at_loop | leaveLoop at_loop =>
    simp [at_loop] at suspend
  | complete u c cancelled flying => simp [still u] at flying
  | drain u _ landed | enter u _ landed => simp [still u] at landed
  | proceedResume u r pump entered | proceedFail u r pump ec entered | resubmitOk u pump fresh tfer entered
  | resubmitFail u r pump fresh tfer entered =>
    simp [free] at entered
  | storeFailure u ec failing => simp [free] at failing
  | cancel => exact ⟨suspend, ec, by simpa [Action.submits] using log⟩
  | requestStop | finishStop | resume => exact ⟨suspend, ec, log⟩

theorem untouched_run (empty : q.sizes = [])
    (h : (machine (completeSequenceAwaitable q limit) q).run (initial (completeSequenceAwaitable q limit) q) es =
      some s) : Untouched s := by
  have kept : Counted q s ∧ Untouched s := by
    refine Machine.run_invariant (I := fun s => Counted q s ∧ Untouched s) ?_
      ⟨counted_initial _ q, Or.inl rfl, rfl, rfl⟩ h
    rintro s e s' ⟨counted, untouched⟩ step
    exact ⟨counted_step counted (step_cases step), untouched_step empty counted untouched (step_cases step)⟩
  exact kept.2

/-- An operation over control transfers whose callbacks all report completion submits whole requests,
each once, and ends without an error, only if it has no buffer; otherwise the first callback it
processes submits its request again. -/
theorem whole_requests_iff (q : Request) (limit : Nat) (es : List Event) (s : State CompleteState)
    (control : q.Control)
    (h : (machine (completeSequenceAwaitable q limit) q).run (initial (completeSequenceAwaitable q limit) q) es =
      some s)
    (data : (machine (completeSequenceAwaitable q limit) q).Meets DataStage
      (initial (completeSequenceAwaitable q limit) q) es) :
    (s.resumed.isSome = true → (WholeRequests q s ↔ q.sizes = [])) ∧
      ((∃ r, .proceed r ∈ es) → ∃ j, j < q.sizes.length ∧ 1 < submissionsOf s.log j) := by
  refine ⟨fun ended => ⟨fun whole => ?_, fun empty => ?_⟩, ?_⟩
  · obtain ⟨⟨ec, n⟩, resumed⟩ := Option.isSome_iff_exists.mp ended
    by_contra some_buffer
    have failed := resumed_failed control some_buffer data h resumed
    simp [whole.fine ec n resumed] at failed
  · obtain ⟨_, error, none⟩ := untouched_run empty h
    refine ⟨fun origin t tfer r member => ?_, by simp [empty], fun ec n resumed => ?_⟩
    · have submission : Action.submit origin t tfer r ∈ submissions s.log := List.mem_filter.mpr ⟨member, rfl⟩
      simp [none] at submission
    · rw [(resumed_with h resumed).1, error]
      rfl
  · rintro ⟨r, member⟩
    obtain ⟨fs, rest, rfl⟩ := List.append_of_mem member
    obtain ⟨u, first, second⟩ := Machine.run_append_some.mp h
    obtain ⟨v, step, later⟩ := Machine.run_cons.mp second
    have data := data.of_prefix (List.prefix_append fs _)
    obtain ⟨j, bound, twice⟩ := proceed_submits_again control (control_run control data first) (requested_run first)
      (step_cases step)
    exact ⟨j, bound, twice.trans_le (submissionsOf_run later j)⟩

def oneControl : Request := ⟨[12], 1, fun _ => { type := .control }, by decide, by decide⟩

theorem oneControl_control : oneControl.Control := ⟨fun _ _ => rfl, by decide, by decide⟩

def requestCompletes : List Event :=
  [.suspend, .submit 0, .leaveLoop, .complete 0 ⟨.completed, 4, []⟩, .callback 0, .proceed (-1), .storeFailure, .resume]

theorem whole_requests_iff_one_control :
    ∃ s, (machine (completeSequenceAwaitable oneControl 64) oneControl).run
      (initial (completeSequenceAwaitable oneControl 64) oneControl) requestCompletes = some s ∧
      ¬ WholeRequests oneControl s ∧ ∃ j, j < oneControl.sizes.length ∧ 1 < submissionsOf s.log j := by
  have run : (machine (completeSequenceAwaitable oneControl 64) oneControl).run
      (initial (completeSequenceAwaitable oneControl 64) oneControl) requestCompletes = some _ := rfl
  obtain ⟨whole, twice⟩ := whole_requests_iff oneControl 64 requestCompletes _ oneControl_control run (by decide)
  exact ⟨_, run, fun all => absurd ((whole rfl).mp all) (by decide), twice ⟨-1, by decide⟩⟩

/-- After the four bytes of its data stage the request is continued with the eight bytes from offset four. -/
theorem completed_request_continued :
    ∃ s, (machine (completeSequenceAwaitable oneControl 64) oneControl).run
      (initial (completeSequenceAwaitable oneControl 64) oneControl) (oneCallback.take 3 ++
        [.complete 0 ⟨.completed, 4, []⟩, .callback 0, .proceed 0]) = some s ∧
      .submit .callback 0 ⟨.control, .completed, 8, 4, ⟨0, 4⟩, []⟩ 0 ∈ s.log ∧ ¬ WholeRequests oneControl s := by
  refine ⟨_, rfl, by decide, fun whole => ?_⟩
  have start := (whole.whole .callback 0 ⟨.control, .completed, 8, 4, ⟨0, 4⟩, []⟩ 0 (by decide)).1
  exact absurd start (by decide)

end CoUsb.Transfer

import CoUsb.Lib.Log
import CoUsb.Transfer.Windows

/-!
# The lengths asked for

A length is computed as a `size_t` and stored in an `int`. It survives exactly when it is less than
`2 ^ 31`, which for complete I/O the limit can ensure whatever the sizes are.
-/

namespace CoUsb.Transfer

variable {q : Request} {e : Event} {es : List Event} {t j limit : Nat}

/-! ### Partial I/O -/

section

variable {s s' : State SequenceState}

def SizesAsked (q : Request) (log : List Action) : Prop :=
  EachSubmission (fun _ _ tfer =>
    0 ≤ tfer.length ∧ tfer.length = ((q.sizes.getD tfer.buffer.buffer 0 : Nat) : Int)) log

/-- What a submission asks for at the beginning of its buffer, of `size` bytes, fits into an `int`. -/
def Fits (size : Nat → Nat) (log : List Action) : Prop :=
  EachSubmission (fun _ _ tfer => size tfer.buffer.buffer < 2 ^ 31) log

theorem fits_of_lt {size : Nat → Nat} {log : List Action} (small : ∀ j, size j < 2 ^ 31) : Fits size log :=
  fun _ _ _ _ _ tfer _ _ => small tfer.buffer.buffer

def Truncated (q : Request) (tfer : LibusbTransfer) : Prop :=
  tfer.length = toInt (q.sizes.getD tfer.buffer.buffer 0)

theorem truncated_run (h : (machine (sequenceAwaitable q) q).run (initial (sequenceAwaitable q) q) es = some s) :
    EachSubmission (fun _ _ tfer => Truncated q tfer) s.log :=
  given_run (fun _ _ => rfl) (fun _ _ length => length) h

theorem EachSubmission.congr {R Q : List Action → Nat → LibusbTransfer → Prop} {log : List Action}
    (same : ∀ before origin t tfer r, before ++ [.submit origin t tfer r] <+: log →
      (R before t tfer ↔ Q before t tfer)) :
    EachSubmission R log ↔ EachSubmission Q log := by
  constructor <;> intro each before a initial origin t tfer r rfl
  · exact (same before origin t tfer r initial).mp (each before _ initial origin t tfer r rfl)
  · exact (same before origin t tfer r initial).mpr (each before _ initial origin t tfer r rfl)

theorem sizes_asked_iff (h : (machine (sequenceAwaitable q) q).run (initial (sequenceAwaitable q) q) es = some s) :
    SizesAsked q s.log ↔ Fits (fun j => q.sizes.getD j 0) s.log := by
  apply EachSubmission.congr
  intro before origin t tfer r initial
  have length : tfer.length = toInt (q.sizes.getD tfer.buffer.buffer 0) :=
    truncated_run h before _ initial origin t tfer r rfl
  rw [length, toInt_eq_iff]
  apply and_iff_right_of_imp
  intro small
  rw [(toInt_eq_iff _).mpr small]
  exact Int.natCast_nonneg _

end

/-! ### Complete I/O -/

section

variable {s s' : State CompleteState}

def Action.givenTo (t : Nat) : Action → Bool
  | .take u _ => u == t
  | _ => false

def given (log : List Action) (t : Nat) : Nat := log.countP (Action.givenTo t)

def Action.processed : Action → Nat
  | .callback _ tfer _ => CompleteSequenceAwaitable.subtotal tfer
  | _ => 0

def processed (log : List Action) (j : Nat) : Nat :=
  ((callbacks log).map fun a => if a.buffer = j then a.processed else 0).sum

/-- The first pass of `t`, or the first submission of buffer `j`. -/
def Begins (before : List Action) (t j : Nat) : Prop := given before t ≤ 1 ∨ submissionsOf before j = 0

/-- Every length is no less than zero and, on the first pass of its transfer and wherever a buffer is begun, the
smaller of the bytes not yet processed and the limit. -/
def LengthsAsked (q : Request) (limit : Nat) (log : List Action) : Prop :=
  EachSubmission (fun before t tfer => 0 ≤ tfer.length ∧ (Begins before t tfer.buffer.buffer → tfer.length =
    ((min (q.sizes.getD tfer.buffer.buffer 0 - processed before tfer.buffer.buffer) limit : Nat) : Int))) log

/-- The same on the first pass of each transfer only. -/
def FirstPassAsked (q : Request) (limit : Nat) (log : List Action) : Prop :=
  EachSubmission (fun before t tfer => 0 ≤ tfer.length ∧ (given before t ≤ 1 → tfer.length =
    ((min (q.sizes.getD tfer.buffer.buffer 0 - processed before tfer.buffer.buffer) limit : Nat) : Int))) log

theorem LengthsAsked.firstPass {log : List Action} (asked : LengthsAsked q limit log) : FirstPassAsked q limit log := by
  intro before a initial origin t tfer r submits
  obtain ⟨nonneg, exact⟩ := asked before a initial origin t tfer r submits
  exact ⟨nonneg, fun first => exact (Or.inl first)⟩

/-- The packets of an isochronous transfer report no more bytes than it was submitted for. -/
def PacketsWithin (s : State CompleteState) : Event → Prop
  | .complete t c => (s.tfers t).type = .isochronous →
    CompleteSequenceAwaitable.subtotal ((s.tfers t).finish c) ≤ (s.tfers t).length.toNat
  | _ => True

instance (s : State CompleteState) : ∀ e, Decidable (PacketsWithin s e)
  | .complete _ _ => inferInstanceAs (Decidable (_ → _))
  | .suspend | .submit _ | .recordFailure | .leaveLoop | .callback _ | .proceed _ | .storeFailure | .requestStop
  | .cancel | .finishStop | .resume => isTrue trivial

/-- The transfer asks for some part of its buffer, truncated or not; nothing of a buffer is processed before it is
begun. -/
structure Portion (q : Request) (limit : Nat) (before : List Action) (t : Nat) (tfer : LibusbTransfer) : Prop where
  length : ∃ n, n ≤ q.sizes.getD tfer.buffer.buffer 0 ∧ tfer.length = toInt (min n limit) ∧
    (Begins before t tfer.buffer.buffer →
      n = q.sizes.getD tfer.buffer.buffer 0 - processed before tfer.buffer.buffer)
  begun : submissionsOf before tfer.buffer.buffer = 0 → processed before tfer.buffer.buffer = 0

theorem processed_congr {log log' : List Action} (calls : callbacks log' = callbacks log) (j : Nat) :
    processed log' j = processed log j := by
  rw [processed, calls, processed]

theorem processed_callback (log : List Action) (tfer : LibusbTransfer) (seen : ErrorCode) (j : Nat) :
    processed (log ++ [.callback t tfer seen]) j = processed log j +
      if tfer.buffer.buffer = j then CompleteSequenceAwaitable.subtotal tfer else 0 := by
  simp only [processed, callbacks_append, callbacks_singleton, Action.isCallback, cond_true, List.map_append,
    List.sum_append, List.map_cons, List.map_nil, List.sum_singleton]
  rfl

@[simp] theorem given_append (log more : List Action) (t : Nat) : given (log ++ more) t = given log t + given more t :=
  List.countP_append

@[simp] theorem given_resumeOnZero (s : State CompleteState) (t : Nat) :
    given (resumeOnZero s).log t = given s.log t := by
  rw [resumeOnZero_log, given_append]
  split <;> rfl

/-- What the running callback has not counted yet. -/
def uncounted (s : State CompleteState) (t : Nat) : Nat :=
  if s.callback = .entered t then CompleteSequenceAwaitable.subtotal (s.tfers t) else 0

/-- What is known of the transfers before their second buffer, and of the buffers ahead. -/
structure Pacing (q : Request) (limit : Nat) (s : State CompleteState) : Prop where
  unstarted : s.started = false → ∀ t, (s.pump.states t).total = 0
  given : s.started = true → ∀ t, t < q.used → 1 ≤ Transfer.given s.log t
  ahead : ∀ j, s.pump.bufCurrent ≤ j → processed s.log j = 0 ∧ submissionsOf s.log j = 0
  waiting : s.started = true → ∀ t, t < q.used → submitted s.log t = false → Transfer.given s.log t ≤ 1 ∧
    processed s.log (bufferOf s.tfers t) = 0 ∧
    (s.tfers t).length = toInt (min (q.sizes.getD (bufferOf s.tfers t) 0) limit)
  first : ∀ t, Working q s t → Transfer.given s.log t ≤ 1 →
    (s.pump.states t).total + uncounted s t = processed s.log (bufferOf s.tfers t) ∧
      (s.pump.states t).total + (s.tfers t).length.toNat ≤ q.sizes.getD (bufferOf s.tfers t) 0

theorem Pacing.of_frame (pacing : Pacing q limit s) (started : s'.started = s.started)
    (working : ∀ t, Working q s' t → Working q s t) (pump : s'.pump = s.pump)
    (tfers : ∀ t, (s'.tfers t).buffer = (s.tfers t).buffer ∧ (s'.tfers t).length = (s.tfers t).length)
    (calls : callbacks s'.log = callbacks s.log)
    (gives : ∀ t, Transfer.given s'.log t = Transfer.given s.log t)
    (ahead : ∀ j, s.pump.bufCurrent ≤ j → submissionsOf s'.log j = submissionsOf s.log j)
    (waiting : ∀ t, submitted s'.log t = false → submitted s.log t = false)
    (same : ∀ t, Working q s' t → uncounted s' t = uncounted s t) : Pacing q limit s' := by
  have buffer : ∀ t, bufferOf s'.tfers t = bufferOf s.tfers t := fun t => by rw [bufferOf, (tfers t).1, bufferOf]
  refine ⟨fun h => ?_, fun h t used => ?_, fun j later => ?_, fun h t used waits => ?_, fun t work once => ?_⟩
  · rw [pump]
    exact pacing.unstarted (started.symm.trans h)
  · rw [gives]
    exact pacing.given (started.symm.trans h) t used
  · rw [pump] at later
    rw [processed_congr calls, ahead j later]
    exact pacing.ahead j later
  · rw [gives, buffer, processed_congr calls, (tfers t).2]
    exact pacing.waiting (started.symm.trans h) t used (waiting t waits)
  · rw [gives] at once
    rw [pump, buffer, processed_congr calls, (tfers t).2, same t work]
    exact pacing.first t (working t work) once

theorem given_le_takes (log : List Action) (t : Nat) : Transfer.given log t ≤ (takes log).length := by
  induction log with
  | nil => exact le_rfl
  | cons a log ih =>
    rw [Transfer.given, List.countP_cons, takes_cons, List.length_append]
    have one : (if Action.givenTo t a then 1 else 0) ≤ a.taken.toList.length := by
      cases a <;> simp [Action.givenTo, Action.taken]
      split <;> omega
    rw [Transfer.given] at ih
    omega

theorem given_filled (handed : CompleteHanded q s) (at_start : s.suspend = .start) (used : t < q.used) :
    Transfer.given (fillLoop (completeSequenceAwaitable q limit) q.positions s).log t = 1 := by
  have none : ∀ u, Transfer.given s.log u = 0 := by
    intro u
    have few := given_le_takes s.log u
    rw [handed.takes, handed.start (by simp [State.started, at_start])] at few
    exact Nat.le_zero.mp few
  have all := fillLoop_positions (P := completeSequenceAwaitable q limit) (q := q) (s := s)
    (I := fun a v => ∀ u, Transfer.given v.log u = if u < a then 1 else 0) (by simpa using none) ?_
  · rw [all, if_pos used]
  · intro u v _ before w
    simp only [fillRound, given_append, before]
    by_cases same : w = u
    · subst w
      simp [Transfer.given, Action.givenTo]
    · have later : w < u + 1 ↔ w < u := by omega
      simp [Transfer.given, Action.givenTo, Ne.symm same, later]

theorem pacing_filled (counted : Counted q s) (handed : CompleteHanded q s) (pacing : Pacing q limit s)
    (at_start : s.suspend = .start) :
    Pacing q limit (s.fill (completeSequenceAwaitable q limit) q) := by
  have unstarted : s.started = false := by simp [State.started, at_start]
  have zero := pacing.unstarted unstarted
  have cur := handed.start unstarted
  obtain ⟨calls, submits⟩ := callbacks_fillLoop (completeSequenceAwaitable q limit) q.positions s
  have idle : (fillLoop (completeSequenceAwaitable q limit) q.positions s).callback = .idle :=
    counted.idle_filled unstarted
  have none : ∀ j, processed (fillLoop (completeSequenceAwaitable q limit) q.positions s).log j = 0 := by
    intro j
    rw [processed_congr calls]
    exact (pacing.ahead j (by omega)).1
  refine ⟨by simp [State.started], fun _ t used => (given_filled handed at_start used).ge, fun j _ => ⟨none j, ?_⟩,
    fun _ t used _ => ⟨(given_filled handed at_start used).le, none _, ?_⟩, fun t working _ => ?_⟩
  · rw [submissionsOf, submits]
    exact (pacing.ahead j (by omega)).2
  · obtain ⟨_, _, given⟩ := fillLoop_zero limit handed at_start zero used
    dsimp only
    rw [bufferOf, given]
    rfl
  · obtain ⟨_, prg, given⟩ := fillLoop_zero limit handed at_start zero working.2.1
    have length := toInt_min_le (q.buffer t).size limit
    simp only [uncounted, idle, none, prg, bufferOf, given]
    exact ⟨rfl, by simpa [Request.buffer] using length⟩

theorem Pacing.callback (seen : ErrorCode) (pacing : Pacing q limit s) (counted : Counted q s)
    (handed : CompleteHanded q s) (free : s.callback = .idle) (landed : s.flight t = .completed)
    (started : s'.started = s.started) (pump : s'.pump = s.pump) (tfers : s'.tfers = s.tfers)
    (calls : callbacks s'.log = callbacks (s.log ++ [.callback t (s.tfers t) seen]))
    (submits : submissions s'.log = submissions s.log)
    (gives : ∀ u, Transfer.given s'.log u = Transfer.given s.log u)
    (waiting : ∀ u, submitted s'.log u = submitted s.log u)
    (working : ∀ u, Working q s' u → Working q s u)
    (brought : ∀ u, Working q s' u →
      uncounted s' u = if u = t then CompleteSequenceAwaitable.subtotal (s.tfers t) else 0) : Pacing q limit s' := by
  have launched := counted.flying t (by simp [landed])
  have now := counted.started_of_submitted launched
  have used := counted.lt_used launched
  have below : bufferOf s.tfers t < s.pump.bufCurrent := handed.buffer_lt now used
  have delivered : ∀ j, processed s'.log j = processed s.log j +
      if bufferOf s.tfers t = j then CompleteSequenceAwaitable.subtotal (s.tfers t) else 0 := fun j =>
    (processed_congr calls j).trans (processed_callback s.log (s.tfers t) seen j)
  have apart : ∀ u, u < q.used → u ≠ t → bufferOf s.tfers t ≠ bufferOf s.tfers u := fun u bound other shared =>
    other (handed.exclusive now used bound shared).symm
  refine ⟨fun h => absurd (started.symm.trans h) (by simp [now]), fun h u bound => ?_, fun j later => ?_,
    fun h u bound waits => ?_, fun u work once => ?_⟩
  · rw [gives]
    exact pacing.given now u bound
  · rw [pump] at later
    have different : bufferOf s.tfers t ≠ j := (below.trans_le later).ne
    rw [delivered, if_neg different, submissionsOf, submits]
    exact pacing.ahead j later
  · rw [waiting] at waits
    have other : u ≠ t := by
      rintro rfl
      simp [launched] at waits
    rw [gives, tfers, delivered, if_neg (apart u bound other)]
    exact pacing.waiting now u bound waits
  · rw [gives] at once
    obtain ⟨total, room⟩ := pacing.first u (working u work) once
    have quiet : uncounted s u = 0 := by simp [uncounted, free]
    rw [pump, tfers, brought u work, delivered]
    by_cases same : u = t
    · subst u
      rw [if_pos rfl, if_pos rfl]
      omega
    · rw [if_neg same, if_neg (apart u (working u work).2.1 same)]
      omega

theorem Pacing.proceed {prg : TransferProgress} {tfer : LibusbTransfer} (pacing : Pacing q limit s)
    (counted : Counted q s) (entered : s.callback = .entered t) (started : s'.started = s.started)
    (others : ∀ u, u ≠ t → Working q s' u → Working q s u) (left : ∀ u, s'.callback ≠ .entered u)
    (states : s'.pump.states = Function.update s.pump.states t prg) (tfers : s'.tfers = Function.update s.tfers t tfer)
    (cur : s.pump.bufCurrent ≤ s'.pump.bufCurrent) (calls : callbacks s'.log = callbacks s.log)
    (ahead : ∀ j, s'.pump.bufCurrent ≤ j → submissionsOf s'.log j = submissionsOf s.log j)
    (more : Transfer.given s.log t ≤ Transfer.given s'.log t)
    (gives : ∀ u, u ≠ t → Transfer.given s'.log u = Transfer.given s.log u)
    (waiting : ∀ u, submitted s'.log u = false → submitted s.log u = false)
    (own : Working q s' t → Transfer.given s'.log t ≤ 1 → prg.total = processed s.log tfer.buffer.buffer ∧
      prg.total + tfer.length.toNat ≤ q.sizes.getD tfer.buffer.buffer 0) : Pacing q limit s' := by
  have work := working_entered counted entered
  refine ⟨fun h => absurd (started.symm.trans h) (by simp [work.1]), fun h u bound => ?_, fun j later => ?_,
    fun h u bound waits => ?_, fun u working once => ?_⟩
  · by_cases same : u = t
    · exact same ▸ (pacing.given work.1 t work.2.1).trans more
    · rw [gives u same]
      exact pacing.given work.1 u bound
  · rw [processed_congr calls, ahead j later]
    exact pacing.ahead j (cur.trans later)
  · have waits := waiting u waits
    have other : u ≠ t := by
      rintro rfl
      simp [(counted.entered entered).2] at waits
    rw [gives u other, processed_congr calls, tfers, bufferOf_update_of_ne other, Function.update_of_ne other]
    exact pacing.waiting work.1 u bound waits
  · rw [uncounted, if_neg (left u), processed_congr calls, states, tfers]
    by_cases same : u = t
    · subst u
      rw [bufferOf_update_self, Function.update_self, Function.update_self]
      exact own working once
    · rw [gives u same] at once
      have before := pacing.first u (others u same working) once
      rw [uncounted, if_neg fun running => same (Callback.entered.inj (running.symm.trans entered))] at before
      rwa [bufferOf_update_of_ne same, Function.update_of_ne same, Function.update_of_ne same]

/-- What a callback submits again, whatever becomes of the submission. -/
structure Resubmits (q : Request) (limit : Nat) (s : State CompleteState) (t : Nat) (pump : CompleteState)
    (fresh : Bool) (tfer : LibusbTransfer) (prg : TransferProgress) : Prop where
  states : pump.states = Function.update s.pump.states t prg
  cur : s.pump.bufCurrent ≤ pump.bufCurrent
  below : tfer.buffer.buffer < pump.bufCurrent
  portion : Portion q limit (s.log ++ if fresh then [.take t tfer.buffer.buffer] else []) t tfer
  again : fresh = false → Transfer.given s.log t ≤ 1 → prg.total = processed s.log tfer.buffer.buffer ∧
    prg.total + tfer.length.toNat ≤ q.sizes.getD tfer.buffer.buffer 0

theorem Pacing.resubmits {pump : CompleteState} {fresh : Bool} {tfer : LibusbTransfer} (pacing : Pacing q limit s)
    (counted : Counted q s) (handed : CompleteHanded q s) (expects : Expects q s) (requested : Requested s)
    (within : Landed (fun tfer => CompleteSequenceAwaitable.subtotal tfer ≤ tfer.length.toNat) s)
    (entered : s.callback = .entered t)
    (exit : (completeSequenceAwaitable q limit).process s.pump t (s.tfers t) = (pump, .submit fresh tfer)) :
    ∃ prg, Resubmits q limit s t pump fresh tfer prg := by
  have work := working_entered counted entered
  have launched := (counted.entered entered).2
  have aligned : (s.pump.states t).ptr.buffer = bufferOf s.tfers t := handed.aligned work.1 t work.2.1
  have expected := expects work.1 t work.2.1
  have small := q.size_lt (bufferOf s.tfers t)
  cases completeSequenceAwaitable_exit exit with
  | next _ _ left =>
    obtain ⟨untouched, unsubmitted⟩ := pacing.ahead s.pump.bufCurrent le_rfl
    have none : processed (s.log ++ [.take t s.pump.bufCurrent]) s.pump.bufCurrent = 0 := by
      rw [← untouched]
      exact processed_congr (by simp [Action.isCallback]) _
    have whole : q.sizes.getD s.pump.bufCurrent 0 = q.sizes.getD s.pump.bufCurrent 0 -
        processed (s.log ++ [.take t s.pump.bufCurrent]) s.pump.bufCurrent := by
      rw [none, Nat.sub_zero]
    exact ⟨_, rfl, Nat.le_succ _, Nat.lt_succ_self _, ⟨⟨_, le_rfl, rfl, fun _ => whole⟩, fun _ => none⟩, by simp⟩
  | again _ short =>
    have part := (Word.sub_of_le short.le (expected ▸ small)).trans (congrArg (· - _) expected)
    have exact : Transfer.given s.log t ≤ 1 →
        (CompleteSequenceAwaitable.counted s.pump t (s.tfers t)).total = processed s.log (bufferOf s.tfers t) := by
      intro once
      obtain ⟨total, room⟩ := pacing.first t work once
      have fits := within t (Or.inr entered)
      rw [uncounted, if_pos entered] at total
      rw [← total]
      exact Word.wrap_of_lt (by omega)
    have begun : submissionsOf s.log (bufferOf s.tfers t) ≠ 0 := (requested t launched).ne'
    refine ⟨_, rfl, le_rfl, ?_, ⟨⟨_, ?_, rfl, ?_⟩, ?_⟩, fun _ once => ⟨?_, ?_⟩⟩
    all_goals simp only [Pointer.add_buffer, aligned, Bool.false_eq_true, if_false, List.append_nil]
    · exact handed.buffer_lt work.1 work.2.1
    · rw [part]
      exact Nat.sub_le _ _
    · intro begins
      rw [part, exact (begins.resolve_right begun)]
    · exact fun none => absurd none begun
    · exact exact once
    · have length := toInt_min_le (Word.sub 64 (s.pump.states t).expected
        (CompleteSequenceAwaitable.counted s.pump t (s.tfers t)).total) limit
      omega

theorem submissionsOf_submit (log : List Action) (origin : Submitter) (tfer : LibusbTransfer) (r : Int)
    (other : tfer.buffer.buffer ≠ j) : submissionsOf (log ++ [.submit origin t tfer r]) j = submissionsOf log j := by
  simp [submissionsOf, Action.submits, Action.buffer, other]

abbrev Within (s : State CompleteState) : Prop :=
  Landed (fun tfer => CompleteSequenceAwaitable.subtotal tfer ≤ tfer.length.toNat) s

theorem pacing_step (counted : Counted q s) (handed : CompleteHanded q s) (expects : Expects q s)
    (requested : Requested s) (within : Within s) (pacing : Pacing q limit s)
    (step : Step (completeSequenceAwaitable q limit) q s e s') : Pacing q limit s' := by
  have before := fun (begun : s.suspend ≠ .start) t => working_before (t := t) counted step begun
  cases step with
  | ready at_start | stopped at_start =>
    exact pacing.of_frame (by simp [State.started, at_start]) (fun t h => absurd h.1 (by simp [State.started])) rfl
      (fun _ => ⟨rfl, rfl⟩) rfl (fun _ => rfl) (fun _ _ => rfl) (fun _ h => h)
      fun t h => absurd h.1 (by simp [State.started])
  | filled at_start => exact pacing_filled counted handed pacing at_start
  | submitOk i at_loop more | submitFail i r at_loop more =>
    have looped := counted.submitting at_loop
    have started : s.started = true := by simp [State.started, at_loop]
    have below := handed.buffer_lt started (lt_of_le_of_ne looped.1 more)
    refine pacing.of_frame (by simp [State.started, at_loop]) (before (by simp [at_loop])) rfl (fun _ => ⟨rfl, rfl⟩)
      (by simp [Action.isCallback]) (fun _ => given_append ..) (fun j later => ?_) (fun t h => ?_) fun _ _ => rfl
    · exact submissionsOf_submit _ _ _ _ (below.trans_le later).ne
    · rw [submitted_append, Bool.or_eq_false_iff] at h
      exact h.1
  | recordFailure i r at_loop | leaveLoop at_loop =>
    exact pacing.of_frame (by simp [State.started, at_loop]) (before (by simp [at_loop])) rfl (fun _ => ⟨rfl, rfl⟩) rfl
      (fun _ => rfl) (fun _ _ => rfl) (fun _ h => h) fun _ _ => rfl
  | complete u c cancelled flying =>
    refine pacing.of_frame rfl (before (counted.begun_of_flying u (by simp [flying]))) rfl
      (finish_window s.tfers u c) rfl (fun _ => rfl) (fun _ _ => rfl) (fun _ h => h) fun t _ => ?_
    by_cases entered : s.callback = .entered t
    · have different : t ≠ u := counted.ne_of_flying flying (busy_entered entered)
      simp [uncounted, Function.update_of_ne different]
    · simp [uncounted, entered]
  | drain u free landed =>
    have launched := counted.flying u (by simp [landed])
    refine pacing.callback s.ec counted handed free landed (started_congr (by simp)) (by simp) (by simp)
      (by simp) (by simp [Action.submits]) (fun _ => (given_resumeOnZero _ _).trans (given_append ..))
      (by simp [Action.launches]) (before (counted.begun_of_flying u (by simp [landed]))) fun t h => ?_
    have other : t ≠ u := by
      rintro rfl
      exact not_working (by simp) (by simp [launched]) (by simp [free]) h
    simp [uncounted, free, other]
  | enter u free landed =>
    refine pacing.callback s.ec counted handed free landed rfl rfl rfl rfl (by simp [Action.submits])
      (by simp [Transfer.given, Action.givenTo]) (by simp [Action.launches])
      (before (counted.begun_of_flying u (by simp [landed]))) fun t _ => ?_
    by_cases same : t = u
    · subst t; simp [uncounted]
    · simp [uncounted, same, Ne.symm same]
  | proceedResume u r pump entered exit =>
    have begun := counted.begun_of_entered entered
    obtain ⟨idle, launched⟩ := counted.entered entered
    cases completeSequenceAwaitable_exit exit with
    | finished =>
      refine pacing.proceed counted entered (started_congr (by simp)) (fun t _ => before begun t) (by simp)
        (by simp; rfl) ((resumeOnZero_tfers _).trans (Function.update_eq_self u s.tfers).symm) (by simp) (by simp)
        (by simp [submissionsOf]) (by simp) (by simp) (by simp) fun h => ?_
      exact absurd h (not_working (by simpa using idle) (by simpa using launched) (by simp))
  | proceedFail u r pump ec entered exit =>
    have begun := counted.begun_of_entered entered
    obtain ⟨idle, launched⟩ := counted.entered entered
    cases completeSequenceAwaitable_exit exit with
    | failed =>
      refine pacing.proceed counted entered rfl (fun t _ => before begun t) (by simp) rfl
        (Function.update_eq_self u s.tfers).symm le_rfl rfl (fun _ _ => rfl) le_rfl (fun _ _ => rfl) (fun _ h => h)
        fun h => ?_
      exact absurd h (not_working idle launched (by simp))
  | resubmitOk u pump fresh tfer entered exit | resubmitFail u r pump fresh tfer entered failed exit =>
    have begun := counted.begun_of_entered entered
    have launched := (counted.entered entered).2
    have work := working_entered counted entered
    obtain ⟨prg, states, cur, below, _, again⟩ :=
      pacing.resubmits counted handed expects requested within entered exit
    refine pacing.proceed counted entered rfl (fun t _ => before begun t) (by simp) states rfl cur
      (by simp [Action.isCallback]) (fun j later => ?_) ?_ (fun v other => ?_) (fun v h => ?_) fun _ once => ?_
    · rw [submissionsOf_submit _ _ _ _ (below.trans_le later).ne, submissionsOf, submissions_append,
        submissions_taken, List.append_nil, submissionsOf]
    · rw [given_append, given_append, Nat.add_assoc]
      exact Nat.le_add_right _ _
    · cases fresh <;> simp [Transfer.given, Action.givenTo, Ne.symm other]
    · exact (submitted_again launched fresh tfer _ v).symm.trans h
    · cases fresh with
      | false => exact again rfl (by simpa [Transfer.given, Action.givenTo] using once)
      | true =>
        have already := pacing.given work.1 u work.2.1
        simp only [given_append] at once
        have one : Transfer.given [.take u tfer.buffer.buffer] u = 1 := by simp [Transfer.given, Action.givenTo]
        simp only [if_true, one] at once
        omega
  | storeFailure u ec failing =>
    have busy := busy_failing failing
    exact pacing.of_frame (started_congr (by simp)) (before (counted.begun_of_busy busy)) (by simp) (by simp)
      (by simp) (by simp) (by simp [submissionsOf]) (by simp) fun t h => by simp [uncounted, failing]
  | cancel i =>
    refine pacing.of_frame rfl (fun t h => ?_) rfl (fun _ => ⟨rfl, rfl⟩) (by simp [Action.isCallback])
      (by simp [Transfer.given, Action.givenTo]) (by simp [submissionsOf, Action.submits]) (by simp [Action.launches])
      fun _ _ => rfl
    exact before (fun at_start => absurd h.1 (by simp [State.started, at_start])) t h
  | requestStop | finishStop | resume =>
    exact pacing.of_frame rfl (fun _ h => h) rfl (fun _ => ⟨rfl, rfl⟩) rfl (fun _ => rfl) (fun _ _ => rfl)
      (fun _ h => h) fun _ _ => rfl

theorem portion_step (counted : Counted q s) (handed : CompleteHanded q s) (expects : Expects q s)
    (requested : Requested s) (within : Within s) (pacing : Pacing q limit s)
    (portions : EachSubmission (Portion q limit) s.log) (step : Step (completeSequenceAwaitable q limit) q s e s') :
    EachSubmission (Portion q limit) s'.log := by
  refine eachSubmission_step portions step (fun i at_loop more => ?_) fun u pump fresh tfer entered exit => ?_
  · have looped := counted.submitting at_loop
    have absent := looped.next
    obtain ⟨_, none, length⟩ :=
      pacing.waiting (by simp [State.started, at_loop]) i (lt_of_le_of_ne looped.1 more) absent
    refine ⟨⟨_, le_rfl, length, fun _ => ?_⟩, fun _ => none⟩
    rw [bufferOf] at none
    rw [none, Nat.sub_zero]
  · obtain ⟨prg, resubmits⟩ := pacing.resubmits counted handed expects requested within entered exit
    exact resubmits.portion

/-! ### Runs -/

structure LengthInvariant (q : Request) (limit : Nat) (s : State CompleteState) : Prop where
  counted : Counted q s
  handed : CompleteHanded q s
  expects : Expects q s
  requested : Requested s
  within : Within s
  pacing : Pacing q limit s
  portions : EachSubmission (Portion q limit) s.log

theorem length_run (within : (machine (completeSequenceAwaitable q limit) q).Meets PacketsWithin
      (initial (completeSequenceAwaitable q limit) q) es)
    (h : (machine (completeSequenceAwaitable q limit) q).run (initial (completeSequenceAwaitable q limit) q) es =
      some s) : LengthInvariant q limit s := by
  refine Machine.run_invariant_of_meets (I := LengthInvariant q limit) ?_ ?_ h within
  · rintro s e s' ⟨counted, handed, expects, requested, landed, pacing, portions⟩ reported step
    have step := step_cases step
    refine ⟨counted_step counted step, handed_step (completeSequenceAwaitable_sequential q limit) counted handed step,
      expects_step handed expects step, requested_step counted requested step, landed_step counted landed step ?_,
      pacing_step counted handed expects requested landed pacing step,
      portion_step counted handed expects requested landed pacing portions step⟩
    rintro t c rfl fits
    by_cases type : (s.tfers t).type = .isochronous
    · exact reported type
    · simp only [Completion.fits, Bool.and_eq_true, decide_eq_true_eq] at fits
      exact (CompleteSequenceAwaitable.subtotal_ordinary (by exact type)).trans_le fits.1
  · refine ⟨counted_initial _ q, handed_initial (completeSequenceAwaitable_sequential q limit),
      by simp [Expects, initial, State.started], by simp [Requested, initial], by simp [Landed, initial],
      ⟨fun _ _ => rfl, by simp [initial, State.started], fun _ _ => ⟨rfl, rfl⟩, by simp [initial, State.started],
        fun t working => absurd working.1 (by simp [initial, State.started])⟩, Log.always_nil⟩

/-- The first submission of a buffer shows whether what it asks for fits. -/
theorem lengths_asked_iff (portions : EachSubmission (Portion q limit) s.log) :
    LengthsAsked q limit s.log ↔ Fits (fun j => min (q.sizes.getD j 0) limit) s.log := by
  constructor
  · intro asked before a initial origin t tfer r rfl
    have member : .submit origin t tfer r ∈ s.log := initial.subset (by simp)
    obtain ⟨earlier, origin', u, tfer', r', first, buffer, unsubmitted⟩ :=
      exists_first_submission (submissionsOf_pos member)
    rw [← buffer] at unsubmitted ⊢
    obtain ⟨⟨n, _, length, whole⟩, begun⟩ := portions earlier _ first origin' u tfer' r' rfl
    have exact := (asked earlier _ first origin' u tfer' r' rfl).2 (Or.inr unsubmitted)
    rw [begun unsubmitted, Nat.sub_zero] at exact whole
    rw [length, whole (Or.inr unsubmitted)] at exact
    exact (toInt_eq_iff _).mp exact
  · intro fits before a initial origin t tfer r rfl
    have small : min (q.sizes.getD tfer.buffer.buffer 0) limit < 2 ^ 31 := fits before _ initial origin t tfer r rfl
    obtain ⟨⟨n, part, length, whole⟩, _⟩ := portions before _ initial origin t tfer r rfl
    have kept : tfer.length = (min n limit : Nat) := length.trans ((toInt_eq_iff _).mpr (by omega))
    exact ⟨kept ▸ Int.natCast_nonneg _, fun begins => by rw [kept, whole begins]⟩

end

/-- Every submission of a partial operation stores the length it should exactly when every buffer submitted has fewer
than `2 ^ 31` bytes, every submission of a complete operation, on the first pass of its transfer or where it begins a
later buffer, when no buffer asks for more at once. -/
theorem lengths_kept_iff (q : Request) (limit : Nat) (es es' : List Event) (s : State SequenceState)
    (s' : State CompleteState)
    (h : (machine (sequenceAwaitable q) q).run (initial (sequenceAwaitable q) q) es = some s)
    (h' : (machine (completeSequenceAwaitable q limit) q).run (initial (completeSequenceAwaitable q limit) q) es' =
      some s')
    (within : (machine (completeSequenceAwaitable q limit) q).Meets PacketsWithin
      (initial (completeSequenceAwaitable q limit) q) es') :
    (SizesAsked q s.log ↔ Fits (fun j => q.sizes.getD j 0) s.log) ∧
      (LengthsAsked q limit s'.log ↔ Fits (fun j => min (q.sizes.getD j 0) limit) s'.log) ∧
      (Fits (fun j => min (q.sizes.getD j 0) limit) s'.log → FirstPassAsked q limit s'.log) := by
  have asked := lengths_asked_iff (length_run within h').portions
  exact ⟨sizes_asked_iff h, asked, fun fits => (asked.mpr fits).firstPass⟩

theorem lengths_kept_iff_one_bulk :
    ∃ s s', (machine (sequenceAwaitable oneBulk) oneBulk).run (initial (sequenceAwaitable oneBulk) oneBulk)
        oneCallback = some s ∧
      (machine (completeSequenceAwaitable oneBulk 2) oneBulk).run
        (initial (completeSequenceAwaitable oneBulk 2) oneBulk)
        ([.suspend, .submit 0, .leaveLoop] ++ moving 2 ++ moving 2) = some s' ∧
      SizesAsked oneBulk s.log ∧ LengthsAsked oneBulk 2 s'.log ∧ FirstPassAsked oneBulk 2 s'.log := by
  have small : ∀ j, oneBulk.sizes.getD j 0 < 2 ^ 31 := fun j => (oneBulk.size_le_sum j).trans_lt (by decide)
  refine ⟨_, _, rfl, rfl, ?_⟩
  obtain ⟨sizes, lengths, first⟩ := lengths_kept_iff oneBulk 2 oneCallback
    ([.suspend, .submit 0, .leaveLoop] ++ moving 2 ++ moving 2) _ _ rfl rfl (by decide)
  have limited : ∀ j, min (oneBulk.sizes.getD j 0) 2 < 2 ^ 31 := fun j => (min_le_left _ _).trans_lt (small j)
  exact ⟨sizes.mpr (fits_of_lt small), lengths.mpr (fits_of_lt limited), first (fits_of_lt limited)⟩

def hugeBulk : Request := ⟨[2 ^ 31], 1, fun _ => { type := .bulk }, by decide, by decide⟩

/-- The length is stored as the least `int`, whatever the limit allows. -/
theorem huge_buffer_length_negative :
    ∃ s s', (machine (sequenceAwaitable hugeBulk) hugeBulk).run (initial (sequenceAwaitable hugeBulk) hugeBulk)
        [.suspend, .submit 0] = some s ∧
      (machine (completeSequenceAwaitable hugeBulk (2 ^ 64 - 1)) hugeBulk).run
        (initial (completeSequenceAwaitable hugeBulk (2 ^ 64 - 1)) hugeBulk) [.suspend, .submit 0] = some s' ∧
      s.log = [.take 0 0, .submit .loop 0 ⟨.bulk, .completed, -2 ^ 31, 0, ⟨0, 0⟩, []⟩ 0] ∧ s'.log = s.log ∧
      ¬ SizesAsked hugeBulk s.log ∧ ¬ FirstPassAsked hugeBulk (2 ^ 64 - 1) s'.log ∧
      ¬ LengthsAsked hugeBulk (2 ^ 64 - 1) s'.log := by
  have negative : ¬ (0 : Int) ≤ -2 ^ 31 := by decide
  have asked : ∀ {R : List Action → Nat → LibusbTransfer → Prop},
      EachSubmission R [.take 0 0, .submit .loop 0 ⟨.bulk, .completed, -2 ^ 31, 0, ⟨0, 0⟩, []⟩ 0] →
      R [.take 0 0] 0 ⟨.bulk, .completed, -2 ^ 31, 0, ⟨0, 0⟩, []⟩ :=
    fun each => each [.take 0 0] _ List.prefix_rfl .loop 0 _ 0 rfl
  exact ⟨_, _, rfl, rfl, by decide, by decide, fun each => negative (asked each).1,
    fun each => negative (asked each).1, fun each => negative (asked each).1⟩

end CoUsb.Transfer

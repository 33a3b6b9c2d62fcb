import CoUsb.Lib.Log
import CoUsb.Transfer.Lockstep

/-!
# The windows of complete I/O

With an error or without, a transfer at work points behind the bytes its buffer has seen, and asks for
no more than the buffer has left.
-/

namespace CoUsb.Transfer

variable {q : Request} {limit : Nat} {s s' : State CompleteState} {e : Event} {es : List Event} {t j : Nat}

/-! ### The windows of a run -/

/-- The window of `tfer` lies in one buffer, and begins where the bytes delivered into that buffer end. -/
structure Window (q : Request) (before : List Action) (tfer : LibusbTransfer) : Prop where
  length : 0 ≤ tfer.length
  buffer : tfer.buffer.buffer < q.sizes.length
  inside : tfer.buffer.offset + tfer.length.toNat ≤ q.sizes.getD tfer.buffer.buffer 0
  continues : tfer.buffer.offset = deliveredTo before tfer.buffer.buffer

def Windowed (q : Request) (log : List Action) : Prop := EachSubmission (fun before _ tfer => Window q before tfer) log

/-- The transfers in flight point into different buffers. -/
def HoldDifferent (s : State CompleteState) : Prop :=
  ∀ t u, s.flight t ≠ .idle → s.flight u ≠ .idle → bufferOf s.tfers t = bufferOf s.tfers u → t = u

/-- A callback that continues with its buffer asks for what is left of it, computed without underflow. -/
def Continues (q : Request) (limit : Nat) (s : State CompleteState) : Prop :=
  ∀ t pump tfer, s.callback = .entered t →
    (completeSequenceAwaitable q limit).process s.pump t (s.tfers t) = (pump, .submit false tfer) →
    (pump.states t).total ≤ (pump.states t).expected ∧
      tfer.length = min ((pump.states t).expected - (pump.states t).total) limit

/-- `t` was given a buffer and may be submitted, called back or submitted again. -/
def Working (q : Request) (s : State CompleteState) (t : Nat) : Prop :=
  s.started = true ∧ t < q.used ∧ (s.isOpen t ∨ s.callback = .entered t)

/-- What is known of the transfers at work. -/
structure Advancing (q : Request) (s : State CompleteState) : Prop where
  working : ∀ t, Working q s t → Progress (q.sizes.getD (bufferOf s.tfers t) 0) (s.pump.states t) (s.tfers t)
    (deliveredTo s.log (bufferOf s.tfers t)) (creditOf s t) ∧ 0 ≤ (s.tfers t).length
  ahead : ∀ j, s.pump.bufCurrent ≤ j → deliveredTo s.log j = 0
  within : ∀ j, deliveredTo s.log j ≤ q.sizes.getD j 0
  moved : movedBytes s.log = ∑ j ∈ Finset.range q.sizes.length, deliveredTo s.log j

theorem toInt_small (n : Nat) (limited : limit < 2 ^ 31) :
    toInt (min n limit) = (min n limit : Nat) ∧ 0 ≤ toInt (min n limit) := by
  have small : toInt (min n limit) = (min n limit : Nat) := Word.narrow_of_lt (by omega)
  exact ⟨small, small ▸ Int.natCast_nonneg _⟩

theorem Advancing.moved_le (advancing : Advancing q s) : movedBytes s.log ≤ q.sizes.sum := by
  calc movedBytes s.log
      = ∑ j ∈ Finset.range q.sizes.length, deliveredTo s.log j := advancing.moved
    _ ≤ ∑ j ∈ Finset.range q.sizes.length, q.sizes.getD j 0 := Finset.sum_le_sum fun j _ => advancing.within j
    _ = q.sizes.sum := q.sum_sizes

theorem countedBytes_le_moved (log : List Action) : countedBytes log ≤ movedBytes log := by
  unfold countedBytes movedBytes
  apply List.sum_le_sum
  intro a _
  cases a with
  | callback t tfer seen =>
    simp only [Action.counted, Action.moved]
    split
    · exact Nat.zero_le _
    · exact le_rfl
  | _ => exact le_rfl

abbrev TotalsBounded (q : Request) (s : State CompleteState) : Prop :=
  Tallied (fun p n => ∑ t ∈ Finset.range q.used, (p.states t).total ≤ n) s

theorem Advancing.no_wrap (advancing : Advancing q s) (bounded : TotalsBounded q s) (small : q.sizes.sum < 2 ^ 64)
    (entered : s.callback = .entered t) (used : t < q.used) :
    (s.pump.states t).total + (s.tfers t).actualLength < 2 ^ 64 := by
  obtain ⟨n, totals, counted⟩ := bounded
  have one := Finset.single_le_sum (f := fun u => (s.pump.states u).total) (fun _ _ => Nat.zero_le _)
    (Finset.mem_range.mpr used)
  have moved := advancing.moved_le
  have less := countedBytes_le_moved s.log
  rw [(credit_entered entered).1] at counted
  omega

theorem Advancing.counted (advancing : Advancing q s) (bounded : TotalsBounded q s) (small : q.sizes.sum < 2 ^ 64)
    (entered : s.callback = .entered t) (used : t < q.used) (plain : (s.tfers t).type ≠ .isochronous) :
    CompleteSequenceAwaitable.counted s.pump t (s.tfers t) =
      { s.pump.states t with total := (s.pump.states t).total + (s.tfers t).actualLength } := by
  rw [CompleteSequenceAwaitable.counted, CompleteSequenceAwaitable.subtotal_ordinary plain, sizeT,
    Word.wrap_of_lt (advancing.no_wrap bounded small entered used)]

/-! ### What a step does to the transfers at work -/

theorem working_entered (counted : Counted q s) (entered : s.callback = .entered t) : Working q s t := by
  have launched := (counted.entered entered).2
  exact ⟨counted.started_of_submitted launched, counted.lt_used launched, Or.inr entered⟩

theorem working_landed (counted : Counted q s) (landed : s.flight t = .completed) : Working q s t := by
  have flying : s.flight t ≠ .idle := by simp [landed]
  exact ⟨counted.started_of_flying flying, counted.lt_used (counted.flying t flying), Or.inl (Or.inl flying)⟩

/-- Only the first loop of `await_suspend` puts transfers to work. -/
theorem working_before (counted : Counted q s) (step : Step (completeSequenceAwaitable q limit) q s e s')
    (begun : s.suspend ≠ .start) (working : Working q s' t) : Working q s t := by
  obtain ⟨started, used, work⟩ := working
  cases step with
  | ready at_start | stopped at_start | filled at_start => exact absurd at_start begun
  | submitOk i at_loop =>
    have looped := counted.submitting at_loop
    refine ⟨by simp [State.started, at_loop], used, ?_⟩
    by_cases same : t = i
    · subst t
      exact Or.inl (Or.inr looped.next)
    · simpa [State.isOpen, Function.update_of_ne same, Action.launches, Ne.symm same] using work
  | submitFail i r at_loop _ failed =>
    exact ⟨by simp [State.started, at_loop], used, by simpa [State.isOpen, Action.launches, failed] using work⟩
  | recordFailure i r at_loop | leaveLoop at_loop => exact ⟨by simp [State.started, at_loop], used, work⟩
  | complete u c cancelled flying =>
    have flight := update_idle_iff u t (by simp [flying] : Flight.completed = .idle ↔ s.flight u = .idle)
    exact ⟨started, used, by simpa only [State.isOpen, ne_eq, flight] using work⟩
  | drain u _ landed | enter u _ landed =>
    by_cases same : t = u
    · subst t
      exact working_landed counted landed
    · simp_all [Working, State.started, State.isOpen, Action.launches, Ne.symm same]
  | proceedResume u _ _ entered | proceedFail u _ _ _ entered | resubmitOk u _ _ _ entered
  | resubmitFail u _ _ _ _ entered =>
    by_cases same : t = u
    · subst t; exact working_entered counted entered
    · simp_all [Working, State.started, State.isOpen, Action.launches, Ne.symm same]
  | storeFailure u ec failing => simp_all [Working, State.started, State.isOpen]
  | cancel i =>
    have same : (s.flight i).cancel = .idle ↔ s.flight i = .idle := by cases s.flight i <;> simp [Flight.cancel]
    refine ⟨started, used, ?_⟩
    simpa only [State.isOpen, ne_eq, update_idle_iff i t same, submitted_append, submitted_singleton, Action.launches,
      Bool.or_false] using work
  | requestStop | finishStop | resume => exact ⟨started, used, work⟩

theorem deliveredTo_congr {log log' : List Action} (calls : callbacks log' = callbacks log) (j : Nat) :
    deliveredTo log' j = deliveredTo log j := by
  rw [deliveredTo, calls, deliveredTo]

theorem movedBytes_congr {log log' : List Action} (calls : callbacks log' = callbacks log) :
    movedBytes log' = movedBytes log := by
  rw [movedBytes, calls, movedBytes]

theorem Advancing.of_frame (advancing : Advancing q s) (working : ∀ t, Working q s' t → Working q s t)
    (pump : s'.pump = s.pump)
    (tfers : ∀ t, (s'.tfers t).buffer = (s.tfers t).buffer ∧ (s'.tfers t).length = (s.tfers t).length)
    (calls : callbacks s'.log = callbacks s.log) (credit : ∀ t, Working q s' t → creditOf s' t = creditOf s t) :
    Advancing q s' := by
  refine ⟨fun t h => ?_, fun j later => ?_, fun j => ?_, ?_⟩
  · have buffer : bufferOf s'.tfers t = bufferOf s.tfers t := by rw [bufferOf, (tfers t).1, bufferOf]
    obtain ⟨progress, length⟩ := advancing.working t (working t h)
    rw [buffer, pump, deliveredTo_congr calls, credit t h, (tfers t).2]
    exact ⟨progress.congr (tfers t).1 (tfers t).2, length⟩
  · rw [pump] at later
    rw [deliveredTo_congr calls]
    exact advancing.ahead j later
  · rw [deliveredTo_congr calls]
    exact advancing.within j
  · rw [movedBytes_congr calls, Finset.sum_congr rfl fun j _ => deliveredTo_congr calls j]
    exact advancing.moved

theorem advancing_filled (limited : limit < 2 ^ 31) (counted : Counted q s) (handed : CompleteHanded q s)
    (advancing : Advancing q s) (at_start : s.suspend = .start) :
    Advancing q (s.fill (completeSequenceAwaitable q limit) q) := by
  have unstarted : s.started = false := by simp [State.started, at_start]
  have zero := handed.start unstarted
  obtain ⟨_, assigned⟩ := fillLoop_progress limit handed at_start
  have calls := (callbacks_fillLoop (completeSequenceAwaitable q limit) q.positions s).1
  have idle : (fillLoop (completeSequenceAwaitable q limit) q.positions s).callback = .idle :=
    counted.idle_filled unstarted
  have none : ∀ j, deliveredTo (fillLoop (completeSequenceAwaitable q limit) q.positions s).log j = 0 := by
    intro j
    rw [deliveredTo_congr calls]
    exact advancing.ahead j (by omega)
  refine ⟨fun t working => ?_, fun j _ => none j, fun j => by rw [none]; exact Nat.zero_le _, ?_⟩
  · obtain ⟨total, tfer, prg, given⟩ := assigned t working.2.1
    dsimp only
    rw [prg, none, (creditOf_free (by exact idle) t).2, bufferOf, given]
    exact ⟨progress_fresh q limit t total tfer, (toInt_small _ limited).2⟩
  · dsimp only
    rw [movedBytes_congr calls, advancing.moved, Finset.sum_congr rfl fun j _ => deliveredTo_congr calls j]

theorem Advancing.callback (seen : ErrorCode) (advancing : Advancing q s) (counted : Counted q s)
    (ordinary : Ordinary q s) (handed : CompleteHanded q s) (free : s.callback = .idle)
    (landed : s.flight t = .completed) (pump : s'.pump = s.pump) (tfers : s'.tfers = s.tfers)
    (calls : callbacks s'.log = callbacks (s.log ++ [.callback t (s.tfers t) seen]))
    (working : ∀ u, Working q s' u → Working q s u)
    (credit : ∀ u, Working q s' u → creditOf s' u = if u = t then (s.tfers t).actualLength else 0) :
    Advancing q s' := by
  have work := working_landed counted landed
  have below : bufferOf s.tfers t < s.pump.bufCurrent := handed.buffer_lt work.1 work.2.1
  have delivered : ∀ j, deliveredTo s'.log j =
      deliveredTo s.log j + if bufferOf s.tfers t = j then (s.tfers t).actualLength else 0 := fun j =>
    (deliveredTo_congr calls j).trans (deliveredTo_callback s.log (s.tfers t) seen j)
  have moved : movedBytes s'.log = movedBytes s.log + (s.tfers t).actualLength := by
    rw [movedBytes_congr calls]
    simp [movedBytes, Action.isCallback, Action.moved]
  obtain ⟨⟨ptr, expected, carried, room, budget, got⟩, length⟩ := advancing.working t work
  have fits := ordinary.landed landed
  rw [(creditOf_free free t).2] at got
  refine ⟨fun u h => ?_, fun j later => ?_, fun j => ?_, ?_⟩
  · rw [pump, tfers, delivered, credit u h]
    by_cases same : u = t
    · subst u
      refine ⟨⟨ptr, expected, carried, room, budget, ?_⟩, length⟩
      rw [if_pos rfl, if_pos rfl, got]
      rfl
    · have before := working u h
      have different : bufferOf s.tfers t ≠ bufferOf s.tfers u := fun shared =>
        same (handed.exclusive work.1 work.2.1 before.2.1 shared).symm
      have progress := advancing.working u before
      rw [(creditOf_free free u).2] at progress
      rwa [if_neg different, if_neg same]
  · rw [pump] at later
    have different : bufferOf s.tfers t ≠ j := (below.trans_le later).ne
    rw [delivered, if_neg different, advancing.ahead j later]
  · rw [delivered]
    split
    case isTrue here =>
      rw [← here]
      omega
    case isFalse => exact advancing.within j
  · rw [moved, Finset.sum_congr rfl fun j _ => delivered j, Finset.sum_add_distrib, ← advancing.moved,
      Finset.sum_ite_eq, if_pos (Finset.mem_range.mpr (below.trans_le handed.cur_le))]

theorem Advancing.proceed {prg : TransferProgress} {tfer : LibusbTransfer} (advancing : Advancing q s)
    (entered : s.callback = .entered t) (others : ∀ u, u ≠ t → Working q s' u → Working q s u)
    (left : ∀ u, s'.callback ≠ .entered u) (states : s'.pump.states = Function.update s.pump.states t prg)
    (tfers : s'.tfers = Function.update s.tfers t tfer) (cur : s.pump.bufCurrent ≤ s'.pump.bufCurrent)
    (calls : callbacks s'.log = callbacks s.log)
    (own : Working q s' t → Progress (q.sizes.getD tfer.buffer.buffer 0) prg tfer
      (deliveredTo s.log tfer.buffer.buffer) 0 ∧ 0 ≤ tfer.length) : Advancing q s' := by
  refine ⟨fun u working => ?_, fun j later => ?_, fun j => ?_, ?_⟩
  · rw [creditOf, if_neg (left u), deliveredTo_congr calls, states, bufferOf, tfers]
    by_cases same : u = t
    · subst u
      rw [Function.update_self, Function.update_self]
      exact own working
    · rw [Function.update_of_ne same, Function.update_of_ne same]
      have before := advancing.working u (others u same working)
      rwa [creditOf, if_neg fun running => same (Callback.entered.inj (running.symm.trans entered))] at before
  · rw [deliveredTo_congr calls]
    exact advancing.ahead j (cur.trans later)
  · rw [deliveredTo_congr calls]
    exact advancing.within j
  · rw [movedBytes_congr calls, Finset.sum_congr rfl fun j _ => deliveredTo_congr calls j]
    exact advancing.moved

theorem Advancing.submits {pump : CompleteState} {fresh : Bool} {tfer : LibusbTransfer} (limited : limit < 2 ^ 31)
    (plain : q.NonIsochronous) (small : q.sizes.sum < 2 ^ 64) (counted : Counted q s) (ordinary : Ordinary q s)
    (bounded : TotalsBounded q s) (advancing : Advancing q s) (entered : s.callback = .entered t)
    (exit : (completeSequenceAwaitable q limit).process s.pump t (s.tfers t) = (pump, .submit fresh tfer)) :
    ∃ prg, pump.states = Function.update s.pump.states t prg ∧ s.pump.bufCurrent ≤ pump.bufCurrent ∧
      Progress (q.sizes.getD tfer.buffer.buffer 0) prg tfer (deliveredTo s.log tfer.buffer.buffer) 0 ∧
      0 ≤ tfer.length := by
  have working := working_entered counted entered
  have type := ordinary.entered plain counted entered
  have exact := advancing.counted bounded small entered working.2.1 type
  obtain ⟨progress, _⟩ := advancing.working t working
  rw [(credit_entered entered).2] at progress
  cases completeSequenceAwaitable_exit exit with
  | next =>
    refine ⟨_, rfl, Nat.le_succ _, ?_, (toInt_small _ limited).2⟩
    rw [show deliveredTo s.log (q.buffer s.pump.bufCurrent).data.buffer = 0 from advancing.ahead _ le_rfl]
    exact progress_fresh q limit s.pump.bufCurrent _ (s.tfers t)
  | again _ short =>
    have subtotal := CompleteSequenceAwaitable.subtotal_ordinary type
    have buffer : bufferOf s.tfers t = (s.pump.states t).ptr.buffer := congrArg Pointer.buffer progress.ptr
    have small : q.sizes.getD (s.pump.states t).ptr.buffer 0 < 2 ^ 64 := (q.size_le_sum _).trans_lt small
    rw [buffer] at progress
    rw [exact] at short
    refine ⟨_, rfl, le_rfl, ?_, (toInt_small _ limited).2⟩
    rw [exact, subtotal]
    exact progress.again limit small (short.trans_eq progress.expected)

theorem not_working (idle : s.flight t = .idle) (launched : submitted s.log t = true)
    (left : s.callback ≠ .entered t) : ¬ Working q s t := by
  rintro ⟨_, _, isOpen | entered⟩
  · simp [State.isOpen, idle, launched] at isOpen
  · exact left entered

theorem advancing_step (limited : limit < 2 ^ 31) (plain : q.NonIsochronous) (small : q.sizes.sum < 2 ^ 64)
    (counted : Counted q s) (ordinary : Ordinary q s) (handed : CompleteHanded q s) (bounded : TotalsBounded q s)
    (advancing : Advancing q s) (step : Step (completeSequenceAwaitable q limit) q s e s') : Advancing q s' := by
  have before := fun (begun : s.suspend ≠ .start) t => working_before (t := t) counted step begun
  cases step with
  | ready | stopped =>
    exact advancing.of_frame (fun t h => absurd h.1 (by simp [State.started])) rfl (fun _ => ⟨rfl, rfl⟩) rfl
      fun t h => absurd h.1 (by simp [State.started])
  | filled at_start => exact advancing_filled limited counted handed advancing at_start
  | submitOk i at_loop | submitFail i r at_loop =>
    exact advancing.of_frame (before (by simp [at_loop])) rfl (fun _ => ⟨rfl, rfl⟩) (by simp [Action.isCallback])
      fun _ _ => rfl
  | recordFailure i r at_loop | leaveLoop at_loop =>
    exact advancing.of_frame (before (by simp [at_loop])) rfl (fun _ => ⟨rfl, rfl⟩) rfl fun _ _ => rfl
  | complete u c cancelled flying =>
    refine advancing.of_frame (before (counted.begun_of_flying u (by simp [flying]))) rfl
      (finish_window s.tfers u c) rfl fun t _ => ?_
    by_cases entered : s.callback = .entered t
    · have different : t ≠ u := counted.ne_of_flying flying (busy_entered entered)
      simp [creditOf, State.credit, entered, Function.update_of_ne different]
    · simp [creditOf, entered]
  | drain u free landed =>
    have launched := counted.flying u (by simp [landed])
    refine advancing.callback s.ec counted ordinary handed free landed (by simp) (by simp)
      (by simp) (before (counted.begun_of_flying u (by simp [landed]))) fun t h => ?_
    have other : t ≠ u := by
      rintro rfl
      exact not_working (by simp) (by simp [launched]) (by simp [free]) h
    rw [if_neg other, (creditOf_free (by simpa using free) t).2]
  | enter u free landed =>
    refine advancing.callback s.ec counted ordinary handed free landed rfl rfl rfl
      (before (counted.begun_of_flying u (by simp [landed]))) fun t _ => ?_
    by_cases same : t = u
    · subst t; simp [creditOf, State.credit]
    · simp [creditOf, same, Ne.symm same]
  | proceedResume u r pump entered exit =>
    have begun := counted.begun_of_entered entered
    obtain ⟨idle, launched⟩ := counted.entered entered
    cases completeSequenceAwaitable_exit exit with
    | finished =>
      refine advancing.proceed entered (fun t _ => before begun t) (by simp) (by simp; rfl)
        ((resumeOnZero_tfers _).trans (Function.update_eq_self u s.tfers).symm) (by simp) (by simp) fun h => ?_
      exact absurd h (not_working (by simpa using idle) (by simpa using launched) (by simp))
  | proceedFail u r pump ec entered exit =>
    have begun := counted.begun_of_entered entered
    obtain ⟨idle, launched⟩ := counted.entered entered
    cases completeSequenceAwaitable_exit exit with
    | failed =>
      refine advancing.proceed entered (fun t _ => before begun t) (by simp) rfl
        (Function.update_eq_self u s.tfers).symm le_rfl rfl fun h => ?_
      exact absurd h (not_working idle launched (by simp))
  | resubmitOk u pump fresh tfer entered exit | resubmitFail u r pump fresh tfer entered failed exit =>
    have begun := counted.begun_of_entered entered
    obtain ⟨prg, states, cur, progress, length⟩ :=
      advancing.submits limited plain small counted ordinary bounded entered exit
    exact advancing.proceed entered (fun t _ => before begun t) (by simp) states rfl cur
      (by simp [Action.isCallback]) fun _ => ⟨progress, length⟩
  | storeFailure u ec failing =>
    have busy := busy_failing failing
    apply advancing.of_frame (before (counted.begun_of_busy busy)) (by simp) (by simp) (by simp)
    intro t h
    simp [creditOf, failing]
  | cancel i =>
    refine advancing.of_frame (fun t h => ?_) rfl (fun _ => ⟨rfl, rfl⟩) (by simp [Action.isCallback]) fun _ _ => rfl
    exact before (fun at_start => absurd h.1 (by simp [State.started, at_start])) t h
  | requestStop | finishStop | resume =>
    exact advancing.of_frame (fun _ h => h) rfl (fun _ => ⟨rfl, rfl⟩) rfl fun _ _ => rfl

/-! ### The windows submitted -/

theorem Window.of_progress {log : List Action} {prg : TransferProgress} {tfer : LibusbTransfer}
    (progress : Progress (q.sizes.getD tfer.buffer.buffer 0) prg tfer (deliveredTo log tfer.buffer.buffer) 0)
    (length : 0 ≤ tfer.length) (bound : tfer.buffer.buffer < q.sizes.length) : Window q log tfer := by
  obtain ⟨ptr, _, _, room, _, got⟩ := progress
  exact ⟨length, bound, by rwa [ptr] at room ⊢, by rw [got, ptr, Nat.add_zero]⟩

theorem loop_window {i : Nat} (counted : Counted q s) (handed : CompleteHanded q s) (advancing : Advancing q s)
    (at_loop : s.suspend = .submitting i) (more : i ≠ q.used) : Window q s.log (s.tfers i) := by
  have looped := counted.submitting at_loop
  have absent := looped.next
  have working : Working q s i :=
    ⟨by simp [State.started, at_loop], lt_of_le_of_ne looped.1 more, Or.inl (Or.inr absent)⟩
  have free : s.callback ≠ .entered i := fun entered => by
    have launched := (counted.entered entered).2
    simp [absent] at launched
  obtain ⟨progress, length⟩ := advancing.working i working
  rw [creditOf, if_neg free] at progress
  exact .of_progress progress length ((handed.buffer_lt working.1 working.2.1).trans_le handed.cur_le)

theorem windowed_step (limited : limit < 2 ^ 31) (plain : q.NonIsochronous) (small : q.sizes.sum < 2 ^ 64)
    (counted : Counted q s) (ordinary : Ordinary q s) (handed : CompleteHanded q s) (bounded : TotalsBounded q s)
    (advancing : Advancing q s) (windowed : Windowed q s.log)
    (step : Step (completeSequenceAwaitable q limit) q s e s') : Windowed q s'.log := by
  apply eachSubmission_step windowed step (fun i => loop_window counted handed advancing)
  intro u pump fresh tfer entered exit
  obtain ⟨now, used, _⟩ := working_entered counted entered
  obtain ⟨prg, _, _, progress, length⟩ :=
    advancing.submits limited plain small counted ordinary bounded entered exit
  have bound : tfer.buffer.buffer < q.sizes.length := by
    cases completeSequenceAwaitable_exit exit with
    | next _ _ left => exact lt_of_le_of_ne handed.cur_le left
    | again =>
      rw [Pointer.add_buffer, handed.aligned now u used]
      exact (handed.buffer_lt now used).trans_le handed.cur_le
  have calls : callbacks (s.log ++ if fresh then [.take u tfer.buffer.buffer] else []) = callbacks s.log := by
    rw [callbacks_append, callbacks_taken, List.append_nil]
  rw [← deliveredTo_congr calls] at progress
  exact .of_progress progress length bound

/-! ### Runs -/

structure WindowInvariant (q : Request) (s : State CompleteState) : Prop where
  complete : CompleteInvariant q s
  bounded : TotalsBounded q s
  advancing : Advancing q s
  windowed : Windowed q s.log

theorem advancing_initial (q : Request) (limit : Nat) : Advancing q (initial (completeSequenceAwaitable q limit) q) :=
  ⟨fun t working => absurd working.1 (by simp [initial, State.started]), fun _ _ => rfl, fun _ => Nat.zero_le _,
    (Finset.sum_eq_zero fun _ _ => rfl).symm⟩

theorem window_initial (q : Request) (limit : Nat) :
    WindowInvariant q (initial (completeSequenceAwaitable q limit) q) :=
  ⟨complete_initial q limit, ⟨0, (completeSequenceAwaitable_tallies q limit).start, rfl⟩, advancing_initial q limit,
    Log.always_nil⟩

theorem window_step (limited : limit < 2 ^ 31) (plain : q.NonIsochronous) (small : q.sizes.sum < 2 ^ 64)
    (inv : WindowInvariant q s) (step : Step (completeSequenceAwaitable q limit) q s e s') : WindowInvariant q s' := by
  obtain ⟨complete, bounded, advancing, windowed⟩ := inv
  have next := complete_step plain small complete step
  obtain ⟨counted, ordinary, handed, _, _⟩ := complete
  exact ⟨next,
    tallied_step (completeSequenceAwaitable_tallies q limit) plain counted ordinary bounded step,
    advancing_step limited plain small counted ordinary handed bounded advancing step,
    windowed_step limited plain small counted ordinary handed bounded advancing windowed step⟩

theorem window_run (limited : limit < 2 ^ 31) (plain : q.NonIsochronous) (small : q.sizes.sum < 2 ^ 64)
    (h : (machine (completeSequenceAwaitable q limit) q).run (initial (completeSequenceAwaitable q limit) q) es =
      some s) : WindowInvariant q s :=
  Machine.run_invariant (fun inv step => window_step limited plain small inv (step_cases step)) (window_initial q limit) h

theorem WindowInvariant.different (inv : WindowInvariant q s) : HoldDifferent s := by
  intro t u first second same
  have launched := inv.complete.counted.flying
  have started := inv.complete.counted.started_of_submitted (launched t first)
  exact inv.complete.handed.exclusive started (inv.complete.counted.lt_used (launched t first))
    (inv.complete.counted.lt_used (launched u second)) same

theorem WindowInvariant.continues (limited : limit < 2 ^ 31) (small : q.sizes.sum < 2 ^ 64)
    (inv : WindowInvariant q s) : Continues q limit s := by
  intro t pump tfer entered exit
  have counted := inv.complete.counted
  have working := working_entered counted entered
  have expected := (inv.advancing.working t working).1.expected
  cases completeSequenceAwaitable_exit exit with
  | again _ short =>
    simp only [Function.update_self]
    have bound : (s.pump.states t).expected < 2 ^ 64 := by
      rw [expected]
      exact (q.size_le_sum _).trans_lt small
    refine ⟨short.le, ?_⟩
    rw [Word.sub_of_le short.le bound]
    exact (toInt_small _ limited).1

/-- Every window a complete operation submits lies in one buffer and begins where the bytes delivered
into that buffer end, the transfers in flight hold different buffers, and what a buffer has left is
computed without underflow. -/
theorem windows_stay_inside (q : Request) (limit : Nat) (es : List Event) (s : State CompleteState)
    (plain : q.NonIsochronous) (small : q.sizes.sum < 2 ^ 64) (limited : limit < 2 ^ 31)
    (h : (machine (completeSequenceAwaitable q limit) q).run (initial (completeSequenceAwaitable q limit) q) es =
      some s) : Windowed q s.log ∧ HoldDifferent s ∧ Continues q limit s := by
  have inv := window_run limited plain small h
  exact ⟨inv.windowed, inv.different, inv.continues limited small⟩

theorem windows_stay_inside_reused :
    ∃ s, (machine (completeSequenceAwaitable reusedBulk 4) reusedBulk).run
      (initial (completeSequenceAwaitable reusedBulk 4) reusedBulk) bothInFull = some s ∧
      Windowed reusedBulk s.log ∧ HoldDifferent s ∧ Continues reusedBulk 4 s :=
  ⟨_, rfl, windows_stay_inside reusedBulk 4 bothInFull _ reusedBulk_nonIsochronous (by decide) (by decide) rfl⟩

end CoUsb.Transfer

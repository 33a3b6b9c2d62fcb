import Mathlib.Algebra.BigOperators.Group.Finset.Piecewise
import Mathlib.Algebra.Order.BigOperators.Group.Finset
import Mathlib.Algebra.Order.Group.Nat
import CoUsb.Transfer.ByteCount
import CoUsb.Transfer.Handing

/-!
# The progress of complete I/O

Without an error, the bytes delivered into the buffer a transfer holds are those its
progress pointer has passed. Its total also keeps the bytes of the buffers before.
-/

namespace CoUsb.Transfer

variable {q : Request} {limit : Nat} {s s' : State CompleteState} {e : Event} {es : List Event} {t j : Nat}

/-! ### Bytes by buffer -/

/-- The bytes the callbacks so far delivered into (or took from) buffer `j`. -/
def deliveredTo (log : List Action) (j : Nat) : Nat :=
  ((callbacks log).map fun a => if a.buffer = j then a.moved else 0).sum

theorem deliveredTo_callback (log : List Action) (tfer : LibusbTransfer) (seen : ErrorCode) (j : Nat) :
    deliveredTo (log ++ [.callback t tfer seen]) j =
      deliveredTo log j + if tfer.buffer.buffer = j then tfer.actualLength else 0 := by
  simp only [deliveredTo, callbacks_append, callbacks_singleton, Action.isCallback, cond_true, List.map_append,
    List.sum_append, List.map_cons, List.map_nil, List.sum_singleton]
  rfl

theorem Request.size_le_sum (q : Request) (j : Nat) : q.sizes.getD j 0 ≤ q.sizes.sum := by
  by_cases bound : j < q.sizes.length
  · have member : q.sizes.getD j 0 ∈ q.sizes := by simp [bound]
    exact List.single_le_sum (fun _ _ => Nat.zero_le _) _ member
  · simp [Nat.not_lt.mp bound]

/-! ### One transfer -/

/-- A transfer that holds a buffer of `size` bytes with `got` of them delivered, the last
`credit` of them not counted yet. -/
structure Progress (size : Nat) (prg : TransferProgress) (tfer : LibusbTransfer) (got credit : Nat) : Prop where
  ptr : tfer.buffer = prg.ptr
  expected : prg.expected = size
  carried : prg.ptr.offset ≤ prg.total
  room : prg.ptr.offset + tfer.length.toNat ≤ size
  budget : prg.ptr.offset = 0 ∨ prg.total + tfer.length.toNat ≤ size
  got : got = prg.ptr.offset + credit

theorem toInt_min_le (n limit : Nat) : (toInt (min n limit)).toNat ≤ n :=
  (Word.narrow_toNat_le 32 _).trans (Nat.min_le_left _ _)

theorem progress_fresh (q : Request) (limit j total : Nat) (tfer : LibusbTransfer) :
    Progress (q.sizes.getD j 0) ⟨(q.buffer j).data, (q.buffer j).size, total⟩
      { tfer with buffer := (q.buffer j).data, length := toInt (min (q.buffer j).size limit) } 0 0 := by
  have length := toInt_min_le (q.buffer j).size limit
  exact ⟨rfl, rfl, Nat.zero_le _, by simpa [Request.buffer] using length, Or.inl rfl, rfl⟩

/-- What is asked for after a short completion leaves room for the bytes of the buffers before. -/
theorem Progress.left {size : Nat} {prg : TransferProgress} {tfer : LibusbTransfer} {got : Nat}
    (progress : Progress size prg tfer got tfer.actualLength) (limit : Nat) (small : size < 2 ^ 64)
    (short : prg.total + tfer.actualLength < size) :
    prg.total + tfer.actualLength +
      (toInt (min (Word.sub 64 prg.expected (prg.total + tfer.actualLength)) limit)).toNat ≤ size := by
  have left : Word.sub 64 prg.expected (prg.total + tfer.actualLength) = size - (prg.total + tfer.actualLength) := by
    rw [progress.expected, Word.sub_of_le short.le small]
  have length := (toInt_min_le (Word.sub 64 prg.expected (prg.total + tfer.actualLength)) limit).trans_eq left
  omega

theorem Progress.again {size : Nat} {prg : TransferProgress} {tfer : LibusbTransfer} {got : Nat}
    (progress : Progress size prg tfer got tfer.actualLength) (limit : Nat) (small : size < 2 ^ 64)
    (short : prg.total + tfer.actualLength < size) :
    Progress size { prg with ptr := prg.ptr + tfer.actualLength, total := prg.total + tfer.actualLength }
      { tfer with
        buffer := prg.ptr + tfer.actualLength
        length := toInt (min (Word.sub 64 prg.expected (prg.total + tfer.actualLength)) limit) } got 0 := by
  have left := progress.left limit small short
  obtain ⟨_, expected, carried, _, _, got⟩ := progress
  refine ⟨rfl, expected, ?_, ?_, Or.inr left, ?_⟩ <;> simp only [Pointer.add_offset] <;> omega

/-! ### All transfers -/

/-- Transfer `t` is at work on the buffer it holds. -/
def Live (q : Request) (s : State CompleteState) (t : Nat) : Prop :=
  s.started = true ∧ t < q.used ∧ (s.isOpen t ∨ s.callback.transfer = some t)

def creditOf (s : State CompleteState) (t : Nat) : Nat := if s.callback = .entered t then s.credit else 0

structure Holding (q : Request) (s : State CompleteState) : Prop where
  live : ∀ t, Live q s t → Progress (q.sizes.getD (bufferOf s.tfers t) 0) (s.pump.states t) (s.tfers t)
    (deliveredTo s.log (bufferOf s.tfers t)) (creditOf s t)
  ahead : ∀ j, s.pump.bufCurrent ≤ j → deliveredTo s.log j = 0
  within : ∀ j, deliveredTo s.log j ≤ q.sizes.getD j 0
  totals : ∑ t ∈ Finset.range q.used, (s.pump.states t).total + s.credit = movedBytes s.log
  moved : movedBytes s.log = ∑ j ∈ Finset.range q.sizes.length, deliveredTo s.log j

abbrev CompleteHanded (q : Request) (s : State CompleteState) : Prop :=
  Handed q CompleteState.bufCurrent (fun p t b => (p.states t).ptr.buffer = b) s

theorem Holding.moved_le (holding : Holding q s) : movedBytes s.log ≤ q.sizes.sum := by
  calc movedBytes s.log
      = ∑ j ∈ Finset.range q.sizes.length, deliveredTo s.log j := holding.moved
    _ ≤ ∑ j ∈ Finset.range q.sizes.length, q.sizes.getD j 0 := Finset.sum_le_sum fun j _ => holding.within j
    _ = q.sizes.sum := q.sum_sizes

/-! ### Steps without an error -/

/-- A step that concerns no buffer. -/
structure Quiet (q : Request) (s s' : State CompleteState) : Prop where
  live : ∀ t, Live q s' t ↔ Live q s t
  pump : s'.pump = s.pump
  tfers : ∀ t, (s'.tfers t).buffer = (s.tfers t).buffer ∧ (s'.tfers t).length = (s.tfers t).length
  calls : callbacks s'.log = callbacks s.log
  entered : ∀ t, s'.callback = .entered t ↔ s.callback = .entered t
  credit : s'.credit = s.credit

/-- What a step can do that leaves no error behind. -/
inductive CleanStep (q : Request) (limit : Nat) (s : State CompleteState) : Event → State CompleteState → Prop where
  | quiet {e : Event} {s' : State CompleteState} (quiet : Quiet q s s')
      (submits : submissions s'.log = submissions s.log) : CleanStep q limit s e s'
  | filled (at_start : s.suspend = .start) :
      CleanStep q limit s .suspend
        { fillLoop (completeSequenceAwaitable q limit) q.positions s with
          suspend := .submitting 0, inFlight := q.used }
  | submit (i : Nat) (at_loop : s.suspend = .submitting i) (more : i ≠ q.used) :
      CleanStep q limit s (.submit 0)
        { s with
          log := s.log ++ [.submit .loop i (s.tfers i) 0]
          flight := Function.update s.flight i (.inFlight false)
          suspend := .submitting (i + 1) }
  | enter (t : Nat) (free : s.callback = .idle) (landed : s.flight t = .completed) :
      CleanStep q limit s (.callback t)
        { s with
          inFlight := Word.sub 64 s.inFlight 1
          flight := Function.update s.flight t .idle
          log := s.log ++ [.callback t (s.tfers t) s.ec]
          callback := .entered t }
  | finish (t : Nat) (r : Int) (pump : CompleteState) (entered : s.callback = .entered t)
      (exit : (completeSequenceAwaitable q limit).process s.pump t (s.tfers t) = (pump, .resume)) :
      CleanStep q limit s (.proceed r) (resumeOnZero { s with pump, callback := .idle })
  | resubmit (t : Nat) (pump : CompleteState) (fresh : Bool) (tfer : LibusbTransfer) (entered : s.callback = .entered t)
      (exit : (completeSequenceAwaitable q limit).process s.pump t (s.tfers t) = (pump, .submit fresh tfer)) :
      CleanStep q limit s (.proceed 0)
        { s with
          pump
          tfers := Function.update s.tfers t tfer
          log := s.log ++ (if fresh then [.take t tfer.buffer.buffer] else []) ++ [.submit .callback t tfer 0]
          flight := Function.update s.flight t (.inFlight false)
          inFlight := sizeT (s.inFlight + 1)
          callback := .idle }

theorem quiet_submit {i : Nat} (counted : Counted q s) (at_loop : s.suspend = .submitting i) :
    Quiet q s (s.launch i) := by
  have looped := counted.submitting at_loop
  have absent := looped.next
  refine ⟨fun t => ?_, rfl, fun _ => ⟨rfl, rfl⟩, by simp [Action.isCallback], fun _ => Iff.rfl, rfl⟩
  by_cases same : t = i
  · subst t; simp [Live, State.started, at_loop, State.isOpen, absent]
  · simp [Live, State.started, at_loop, State.isOpen, Function.update_of_ne same, Action.launches, Ne.symm same]

theorem quiet_complete {c : Completion} {cancelled : Bool} (counted : Counted q s)
    (flying : s.flight t = .inFlight cancelled) :
    Quiet q s
      { s with
        tfers := Function.update s.tfers t ((s.tfers t).finish c)
        flight := Function.update s.flight t .completed } := by
  have flight := fun u => update_idle_iff t u (by simp [flying] : Flight.completed = .idle ↔ s.flight t = .idle)
  refine ⟨fun u => ?_, rfl, finish_window s.tfers t c, rfl, fun _ => Iff.rfl, ?_⟩
  · simp only [Live, State.started, State.isOpen, ne_eq, flight]
  · cases busy : s.callback with
    | idle | failing => simp only [State.credit, busy]
    | entered u =>
      have different : u ≠ t := counted.ne_of_flying flying (by rw [busy]; rfl)
      simp only [State.credit, busy, Function.update_of_ne different]

theorem clean_step (counted : Counted q s) (ordinary : Ordinary q s)
    (step : Step (completeSequenceAwaitable q limit) q s e s') (clean : Clean s') : CleanStep q limit s e s' := by
  obtain ⟨fine, unfailing, running⟩ := clean
  cases step with
  | ready at_start =>
    refine .quiet ⟨fun t => ?_, rfl, fun _ => ⟨rfl, rfl⟩, rfl, fun _ => Iff.rfl, rfl⟩ rfl
    simp [Live, State.started, at_start]
  | stopped => exact absurd fine (by simp [TransferStatus.code])
  | filled at_start => exact .filled at_start
  | submitOk i at_loop more => exact .submit i at_loop more
  | submitFail i r => exact absurd rfl (running i r)
  | recordFailure i r failed =>
    have looped := counted.refused failed
    exact absurd fine (by simpa using looped.2.2)
  | leaveLoop at_end =>
    refine .quiet ⟨fun t => ?_, rfl, fun _ => ⟨rfl, rfl⟩, rfl, fun _ => Iff.rfl, rfl⟩ rfl
    simp [Live, State.started, at_end, State.isOpen]
  | complete u c cancelled flying => exact .quiet (quiet_complete counted flying) rfl
  | drain _ _ _ failed => exact absurd fine (by simp [failed])
  | enter u free landed => exact .enter u free landed
  | proceedResume u r pump entered exit => exact .finish u r pump entered exit
  | proceedFail u r pump ec => exact absurd rfl (unfailing u ec)
  | resubmitOk u pump fresh tfer entered exit => exact .resubmit u pump fresh tfer entered exit
  | resubmitFail u r => exact absurd rfl (unfailing u (makeUsbErrorCode r))
  | storeFailure u ec failing => exact absurd fine (by simp [ordinary.error u ec failing])
  | cancel i =>
    have same : (s.flight i).cancel = .idle ↔ s.flight i = .idle := by cases s.flight i <;> simp [Flight.cancel]
    refine .quiet ⟨fun t => ?_, rfl, fun _ => ⟨rfl, rfl⟩, by simp [Action.isCallback], fun _ => Iff.rfl, rfl⟩
      (by simp [Action.submits])
    simp only [Live, State.started, State.isOpen, ne_eq, update_idle_iff i t same, submitted_append,
      submitted_singleton, Action.launches, Bool.or_false]
  | requestStop | finishStop | resume =>
    exact .quiet ⟨fun _ => Iff.rfl, rfl, fun _ => ⟨rfl, rfl⟩, rfl, fun _ => Iff.rfl, rfl⟩ rfl

theorem Quiet.delivered (quiet : Quiet q s s') (j : Nat) : deliveredTo s'.log j = deliveredTo s.log j := by
  rw [deliveredTo, quiet.calls, deliveredTo]

theorem Quiet.buffer (quiet : Quiet q s s') (t : Nat) : bufferOf s'.tfers t = bufferOf s.tfers t := by
  rw [bufferOf, (quiet.tfers t).1, bufferOf]

theorem Progress.congr {size : Nat} {prg : TransferProgress} {tfer tfer' : LibusbTransfer} {got credit : Nat}
    (progress : Progress size prg tfer got credit) (buffer : tfer'.buffer = tfer.buffer)
    (length : tfer'.length = tfer.length) : Progress size prg tfer' got credit := by
  obtain ⟨ptr, expected, carried, room, budget, got⟩ := progress
  exact ⟨buffer.trans ptr, expected, carried, by rwa [length], by rwa [length], got⟩

/-! ### The transfers at work -/

theorem live_filled (counted : Counted q s) (at_start : s.suspend = .start) (used : t < q.used) :
    Live q (s.fill (completeSequenceAwaitable q limit) q) t := by
  have unstarted : s.started = false := by simp [State.started, at_start]
  refine ⟨rfl, used, Or.inl (Or.inr ?_)⟩
  exact (submitted_fillLoop ..).trans (counted.unlaunched unstarted t)

theorem live_enter (counted : Counted q s) (free : s.callback = .idle) (landed : s.flight t = .completed) (u : Nat) :
    Live q (s.enter t) u ↔ Live q s u := by
  have launched := counted.flying t (by simp [landed])
  by_cases same : u = t
  · subst u
    simp [Live, State.started, State.isOpen, Callback.transfer, landed]
  · simp [Live, State.started, State.isOpen, Callback.transfer, free, Function.update_of_ne same, Action.launches,
      Ne.symm same]

theorem live_finish (pump : CompleteState) (counted : Counted q s) (entered : s.callback = .entered t) (u : Nat) :
    Live q (resumeOnZero { s with pump, callback := .idle }) u ↔ u ≠ t ∧ Live q s u := by
  obtain ⟨idle, launched⟩ := counted.entered entered
  by_cases same : u = t
  · subst u
    simp [Live, State.isOpen, Callback.transfer, idle, launched]
  · simp [Live, State.started, State.isOpen, Callback.transfer, entered, same, Ne.symm same]

theorem live_resubmit (pump : CompleteState) (fresh : Bool) (tfer : LibusbTransfer) (counted : Counted q s)
    (entered : s.callback = .entered t) (u : Nat) :
    Live q (s.resubmit t pump fresh tfer) u ↔ Live q s u := by
  obtain ⟨idle, launched⟩ := counted.entered entered
  simp only [Live, State.started, State.isOpen, submitted_again launched]
  by_cases same : u = t
  · subst u
    simp [Callback.transfer, entered]
  · simp [Callback.transfer, entered, Function.update_of_ne same, Ne.symm same]

theorem live_entered (counted : Counted q s) (entered : s.callback = .entered t) : Live q s t := by
  have launched := (counted.entered entered).2
  exact ⟨counted.started_of_submitted launched, counted.lt_used launched, Or.inr (busy_entered entered)⟩

theorem live_landed (counted : Counted q s) (landed : s.flight t = .completed) : Live q s t := by
  have flying : s.flight t ≠ .idle := by simp [landed]
  exact ⟨counted.started_of_flying flying, counted.lt_used (counted.flying t flying), Or.inl (Or.inl flying)⟩

/-! ### What a step does to the progress -/

theorem Holding.of_quiet (holding : Holding q s) (quiet : Quiet q s s') : Holding q s' := by
  have moved : movedBytes s'.log = movedBytes s.log := by rw [movedBytes, quiet.calls, movedBytes]
  refine ⟨fun t h => ?_, fun j later => ?_, fun j => ?_, ?_, ?_⟩
  · have credits : creditOf s' t = creditOf s t := by simp only [creditOf, quiet.entered, quiet.credit]
    rw [quiet.buffer, quiet.pump, quiet.delivered, credits]
    exact (holding.live t ((quiet.live t).mp h)).congr (quiet.tfers t).1 (quiet.tfers t).2
  · rw [quiet.pump] at later
    rw [quiet.delivered]
    exact holding.ahead j later
  · rw [quiet.delivered]
    exact holding.within j
  · rw [quiet.pump, quiet.credit, moved]
    exact holding.totals
  · rw [moved, Finset.sum_congr rfl fun j _ => quiet.delivered j]
    exact holding.moved

theorem fillLoop_progress (limit : Nat) (handed : CompleteHanded q s) (at_start : s.suspend = .start) :
    (∀ t, ((fillLoop (completeSequenceAwaitable q limit) q.positions s).pump.states t).total =
      (s.pump.states t).total) ∧
    ∀ t, t < q.used → ∃ (total : Nat) (tfer : LibusbTransfer),
      (fillLoop (completeSequenceAwaitable q limit) q.positions s).pump.states t =
        ⟨(q.buffer t).data, (q.buffer t).size, total⟩ ∧
      (fillLoop (completeSequenceAwaitable q limit) q.positions s).tfers t =
        { tfer with buffer := (q.buffer t).data, length := toInt (min (q.buffer t).size limit) } := by
  have zero := handed.start (by simp [State.started, at_start])
  refine (fillLoop_positions (P := completeSequenceAwaitable q limit)
    (I := fun a u => u.pump.bufCurrent = a ∧ (∀ t, (u.pump.states t).total = (s.pump.states t).total) ∧
      ∀ t, t < a → ∃ (total : Nat) (tfer : LibusbTransfer),
        u.pump.states t = ⟨(q.buffer t).data, (q.buffer t).size, total⟩ ∧
        u.tfers t = { tfer with buffer := (q.buffer t).data, length := toInt (min (q.buffer t).size limit) })
    ⟨zero, fun _ => rfl, fun t h => absurd h (Nat.not_lt_zero t)⟩ ?_).2
  rintro t u _ ⟨cur, totals, assigned⟩
  refine ⟨by simp [fillRound, CompleteSequenceAwaitable.fill, cur], fun v => ?_, fun v bound => ?_⟩
  · by_cases same : v = t
    · subst v; simp [fillRound, CompleteSequenceAwaitable.fill, totals]
    · simp [fillRound, CompleteSequenceAwaitable.fill, Function.update_of_ne same, totals]
  · by_cases same : v = t
    · subst v
      exact ⟨(u.pump.states t).total, u.tfers t, by simp [fillRound, CompleteSequenceAwaitable.fill, cur],
        by simp [fillRound, CompleteSequenceAwaitable.fill, cur]⟩
    · obtain ⟨total, tfer, prg, assigned⟩ := assigned v (by omega)
      exact ⟨total, tfer, by simpa [fillRound, CompleteSequenceAwaitable.fill, Function.update_of_ne same] using prg,
        by simpa [fillRound, CompleteSequenceAwaitable.fill, Function.update_of_ne same] using assigned⟩

theorem fillLoop_zero (limit : Nat) (handed : CompleteHanded q s) (at_start : s.suspend = .start)
    (zero : ∀ t, (s.pump.states t).total = 0) (used : t < q.used) :
    ∃ tfer : LibusbTransfer,
      (fillLoop (completeSequenceAwaitable q limit) q.positions s).pump.states t =
        ⟨(q.buffer t).data, (q.buffer t).size, 0⟩ ∧
      (fillLoop (completeSequenceAwaitable q limit) q.positions s).tfers t =
        { tfer with buffer := (q.buffer t).data, length := toInt (min (q.buffer t).size limit) } := by
  obtain ⟨totals, assigned⟩ := fillLoop_progress limit handed at_start
  obtain ⟨total, tfer, prg, given⟩ := assigned t used
  have empty : total = 0 := by
    have kept := totals t
    rw [prg, zero] at kept
    exact kept
  exact ⟨tfer, empty ▸ prg, given⟩

theorem creditOf_free (free : s.callback = .idle) (t : Nat) : s.credit = 0 ∧ creditOf s t = 0 := by
  have none : s.credit = 0 := by rw [State.credit, free]
  exact ⟨none, by rw [creditOf, none, ite_self]⟩

theorem Holding.nothing_moved (holding : Holding q s) (zero : s.pump.bufCurrent = 0) : movedBytes s.log = 0 := by
  rw [holding.moved]
  exact Finset.sum_eq_zero fun j _ => holding.ahead j (by omega)

theorem holding_filled (counted : Counted q s) (handed : CompleteHanded q s) (holding : Holding q s)
    (at_start : s.suspend = .start) :
    Holding q (s.fill (completeSequenceAwaitable q limit) q) := by
  have unstarted : s.started = false := by simp [State.started, at_start]
  have zero := handed.start unstarted
  have free := (counted.untouched unstarted).1
  obtain ⟨totals, assigned⟩ := fillLoop_progress limit handed at_start
  have calls := (callbacks_fillLoop (completeSequenceAwaitable q limit) q.positions s).1
  have idle : (fillLoop (completeSequenceAwaitable q limit) q.positions s).callback = .idle :=
    counted.idle_filled unstarted
  have none : ∀ j, deliveredTo (fillLoop (completeSequenceAwaitable q limit) q.positions s).log j = 0 := by
    intro j
    rw [deliveredTo, calls]
    exact holding.ahead j (by omega)
  have moved : movedBytes (fillLoop (completeSequenceAwaitable q limit) q.positions s).log = movedBytes s.log := by
    rw [movedBytes, calls, movedBytes]
  have nothing := holding.nothing_moved zero
  refine ⟨fun t live => ?_, fun j _ => none j, fun j => by rw [none]; exact Nat.zero_le _, ?_, ?_⟩
  · obtain ⟨total, tfer, prg, given⟩ := assigned t live.2.1
    dsimp only
    rw [prg, none, (creditOf_free (by exact idle) t).2, bufferOf, given]
    exact progress_fresh q limit t total tfer
  · rw [(creditOf_free (by exact idle) 0).1]
    dsimp only
    rw [Finset.sum_congr rfl fun t _ => totals t, moved, ← holding.totals, (creditOf_free free 0).1]
  · dsimp only
    rw [moved, nothing, Finset.sum_eq_zero fun j _ => none j]

theorem holding_enter (counted : Counted q s) (ordinary : Ordinary q s) (handed : CompleteHanded q s)
    (holding : Holding q s) (free : s.callback = .idle) (landed : s.flight t = .completed) :
    Holding q (s.enter t) := by
  have live := live_landed counted landed
  have below : bufferOf s.tfers t < s.pump.bufCurrent := handed.buffer_lt live.1 live.2.1
  have delivered : ∀ j, deliveredTo (s.log ++ [.callback t (s.tfers t) s.ec]) j =
      deliveredTo s.log j + if bufferOf s.tfers t = j then (s.tfers t).actualLength else 0 :=
    deliveredTo_callback s.log (s.tfers t) s.ec
  have moved : movedBytes (s.log ++ [.callback t (s.tfers t) s.ec]) = movedBytes s.log + (s.tfers t).actualLength := by
    simp [movedBytes, Action.isCallback, Action.moved]
  obtain ⟨ptr, expected, carried, room, budget, got⟩ := holding.live t live
  have fits := ordinary.landed landed
  rw [(creditOf_free free t).2] at got
  refine ⟨fun u h => ?_, fun j later => ?_, fun j => ?_, ?_, ?_⟩
  · have before := (live_enter counted free landed u).mp h
    dsimp only
    rw [delivered]
    by_cases same : u = t
    · subst u
      refine ⟨ptr, expected, carried, room, budget, ?_⟩
      rw [if_pos rfl, got, creditOf, if_pos rfl]
      rfl
    · have different : bufferOf s.tfers t ≠ bufferOf s.tfers u := fun shared =>
        same (handed.exclusive live.1 live.2.1 before.2.1 shared).symm
      have progress := holding.live u before
      rw [(creditOf_free free u).2] at progress
      rwa [if_neg different, Nat.add_zero, creditOf, if_neg fun here => same (Callback.entered.inj here).symm]
  · have different : bufferOf s.tfers t ≠ j := (below.trans_le later).ne
    dsimp only
    rw [delivered, if_neg different, holding.ahead j later]
  · dsimp only
    rw [delivered]
    split
    case isTrue here =>
      rw [← here]
      omega
    case isFalse => exact holding.within j
  · have totals := holding.totals
    rw [(creditOf_free free 0).1, Nat.add_zero] at totals
    dsimp only
    rw [moved, totals]
    rfl
  · dsimp only
    rw [moved, Finset.sum_congr rfl fun j _ => delivered j, Finset.sum_add_distrib, ← holding.moved,
      Finset.sum_ite_eq, if_pos (Finset.mem_range.mpr (below.trans_le handed.cur_le))]

theorem sum_update (f : TransferProgress → Nat) {states : Nat → TransferProgress} {prg : TransferProgress} {n : Nat}
    (used : t < n) :
    ∑ u ∈ Finset.range n, f (Function.update states t prg u) + f (states t) =
      ∑ u ∈ Finset.range n, f (states u) + f prg := by
  have member := Finset.mem_range.mpr used
  rw [← Finset.add_sum_erase _ _ member, ← Finset.add_sum_erase _ (fun u => f (states u)) member,
    Function.update_self, Finset.sum_congr rfl fun u other => by
      rw [Function.update_of_ne (Finset.ne_of_mem_erase other)]]
  omega

theorem credit_entered (entered : s.callback = .entered t) :
    s.credit = (s.tfers t).actualLength ∧ creditOf s t = (s.tfers t).actualLength := by
  have credit : s.credit = (s.tfers t).actualLength := by rw [State.credit, entered]
  exact ⟨credit, by rw [creditOf, if_pos entered, credit]⟩

/-- The totals stay within `size_t` as long as the sizes of all buffers do. -/
theorem Holding.no_wrap (holding : Holding q s) (small : q.sizes.sum < 2 ^ 64) (entered : s.callback = .entered t)
    (used : t < q.used) : (s.pump.states t).total + (s.tfers t).actualLength < 2 ^ 64 := by
  have one := Finset.single_le_sum (f := fun u => (s.pump.states u).total) (fun _ _ => Nat.zero_le _)
    (Finset.mem_range.mpr used)
  have totals := holding.totals
  have moved := holding.moved_le
  rw [(credit_entered entered).1] at totals
  omega

theorem Holding.counted (holding : Holding q s) (small : q.sizes.sum < 2 ^ 64) (entered : s.callback = .entered t)
    (used : t < q.used) (plain : (s.tfers t).type ≠ .isochronous) :
    CompleteSequenceAwaitable.counted s.pump t (s.tfers t) =
      { s.pump.states t with total := (s.pump.states t).total + (s.tfers t).actualLength } := by
  rw [CompleteSequenceAwaitable.counted, CompleteSequenceAwaitable.subtotal_ordinary plain, sizeT,
    Word.wrap_of_lt (holding.no_wrap small entered used)]

theorem Holding.proceed {prg : TransferProgress} {tfer : LibusbTransfer} (holding : Holding q s)
    (entered : s.callback = .entered t) (used : t < q.used) (others : ∀ u, u ≠ t → Live q s' u → Live q s u)
    (free : s'.callback = .idle) (states : s'.pump.states = Function.update s.pump.states t prg)
    (tfers : s'.tfers = Function.update s.tfers t tfer) (cur : s.pump.bufCurrent ≤ s'.pump.bufCurrent)
    (calls : callbacks s'.log = callbacks s.log)
    (total : prg.total = (s.pump.states t).total + (s.tfers t).actualLength)
    (own : Live q s' t → Progress (q.sizes.getD tfer.buffer.buffer 0) prg tfer
      (deliveredTo s.log tfer.buffer.buffer) 0) : Holding q s' := by
  have delivered : deliveredTo s'.log = deliveredTo s.log := by
    funext j
    rw [deliveredTo, calls, deliveredTo]
  have moved : movedBytes s'.log = movedBytes s.log := by rw [movedBytes, calls, movedBytes]
  refine ⟨fun u live => ?_, fun j later => ?_, ?_, ?_, ?_⟩
  · rw [(creditOf_free free u).2, delivered, states, bufferOf, tfers]
    by_cases same : u = t
    · subst u
      rw [Function.update_self, Function.update_self]
      exact own live
    · rw [Function.update_of_ne same, Function.update_of_ne same]
      have before := holding.live u (others u same live)
      rwa [creditOf, if_neg fun running => same (Callback.entered.inj (running.symm.trans entered))] at before
  · rw [delivered]
    exact holding.ahead j (cur.trans later)
  · rw [delivered]
    exact holding.within
  · have sum : _ = ∑ u ∈ Finset.range q.used, (s.pump.states u).total + prg.total := sum_update _ used
    have totals := holding.totals
    rw [(credit_entered entered).1] at totals
    rw [(creditOf_free free 0).1, states, moved]
    omega
  · rw [moved, delivered]
    exact holding.moved

theorem holding_finished (plain : q.NonIsochronous) (small : q.sizes.sum < 2 ^ 64) (counted : Counted q s)
    (ordinary : Ordinary q s) (holding : Holding q s) (entered : s.callback = .entered t) {pump : CompleteState}
    (exit : (completeSequenceAwaitable q limit).process s.pump t (s.tfers t) = (pump, .resume)) :
    Holding q (resumeOnZero { s with pump, callback := .idle }) := by
  have used := (live_entered counted entered).2.1
  have exact := holding.counted small entered used (ordinary.entered plain counted entered)
  have tfers : s.tfers = Function.update s.tfers t (s.tfers t) := (Function.update_eq_self t s.tfers).symm
  cases completeSequenceAwaitable_exit exit with
  | finished =>
    exact holding.proceed entered used (fun u _ live => ((live_finish _ counted entered u).mp live).2) (by simp)
      (by simp; rfl) ((resumeOnZero_tfers _).trans tfers) (by simp) (by simp) (by rw [exact])
      fun live => absurd rfl ((live_finish _ counted entered t).mp live).1

theorem holding_resubmit (plain : q.NonIsochronous) (small : q.sizes.sum < 2 ^ 64) (counted : Counted q s)
    (ordinary : Ordinary q s) (holding : Holding q s) (entered : s.callback = .entered t)
    {pump : CompleteState} {fresh : Bool} {tfer : LibusbTransfer}
    (exit : (completeSequenceAwaitable q limit).process s.pump t (s.tfers t) = (pump, .submit fresh tfer)) :
    Holding q (s.resubmit t pump fresh tfer) := by
  have live := live_entered counted entered
  have ordinary := ordinary.entered plain counted entered
  have exact := holding.counted small entered live.2.1 ordinary
  have progress := holding.live t live
  rw [(credit_entered entered).2] at progress
  have others := fun u (_ : u ≠ t) => (live_resubmit pump fresh tfer counted entered u).mp
  cases completeSequenceAwaitable_exit exit with
  | next =>
    refine holding.proceed entered live.2.1 others rfl rfl rfl (Nat.le_succ _) (by simp [Action.isCallback])
      (by rw [exact]) fun _ => ?_
    rw [show deliveredTo s.log (q.buffer s.pump.bufCurrent).data.buffer = 0 from holding.ahead _ le_rfl]
    exact progress_fresh q limit s.pump.bufCurrent _ (s.tfers t)
  | again _ short =>
    have subtotal := CompleteSequenceAwaitable.subtotal_ordinary ordinary
    have buffer : bufferOf s.tfers t = (s.pump.states t).ptr.buffer := congrArg Pointer.buffer progress.ptr
    have small : q.sizes.getD (s.pump.states t).ptr.buffer 0 < 2 ^ 64 := (q.size_le_sum _).trans_lt small
    rw [buffer] at progress
    rw [exact] at short
    refine holding.proceed entered live.2.1 others rfl rfl rfl le_rfl (by simp [Action.isCallback]) (by rw [exact])
      fun _ => ?_
    rw [exact, subtotal]
    exact progress.again limit small (short.trans_eq progress.expected)

theorem holding_step (plain : q.NonIsochronous) (small : q.sizes.sum < 2 ^ 64) (counted : Counted q s)
    (ordinary : Ordinary q s) (handed : CompleteHanded q s) (holding : Holding q s)
    (step : CleanStep q limit s e s') : Holding q s' := by
  cases step with
  | quiet quiet => exact holding.of_quiet quiet
  | submit i at_loop => exact holding.of_quiet (quiet_submit counted at_loop)
  | filled at_start => exact holding_filled counted handed holding at_start
  | enter t free landed => exact holding_enter counted ordinary handed holding free landed
  | finish t r pump entered exit => exact holding_finished plain small counted ordinary holding entered exit
  | resubmit t pump fresh tfer entered exit =>
    exact holding_resubmit plain small counted ordinary holding entered exit

theorem holding_initial (q : Request) (limit : Nat) : Holding q (initial (completeSequenceAwaitable q limit) q) := by
  refine ⟨fun t live => absurd live.1 (by simp [initial, State.started]), fun _ _ => rfl,
    fun _ => Nat.zero_le _, ?_, ?_⟩
  · simp [initial, completeSequenceAwaitable, movedBytes, State.credit]
  · exact (Finset.sum_eq_zero fun _ _ => rfl).symm

end CoUsb.Transfer

import CoUsb.Transfer.History
import CoUsb.Transfer.Ordinary
import CoUsb.Transfer.Resumption

/-!
# The byte count

`await_resume` returns the bytes of the callbacks that found no error stored; a callback
that drains leaves the count alone.
-/

namespace CoUsb.Transfer

variable {σ : Type} {P : Pump σ} {q : Request} {s s' : State σ} {e : Event} {es : List Event} {ec : ErrorCode}
  {t n : Nat}

/-- The bytes a callback was invoked with. -/
def Action.moved : Action → Nat
  | .callback _ tfer _ => tfer.actualLength
  | _ => 0

/-- The same, where the callback found no error stored. -/
def Action.counted : Action → Nat
  | .callback _ tfer seen => if seen.isError then 0 else tfer.actualLength
  | _ => 0

def movedBytes (log : List Action) : Nat := ((callbacks log).map Action.moved).sum

def countedBytes (log : List Action) : Nat := ((callbacks log).map Action.counted).sum

/-- What an awaitable does to the count. -/
structure Counts (P : Pump σ) (q : Request) : Prop where
  start : P.total P.start = 0
  fill : ∀ p t tfer, P.total (P.fill p t tfer).1 = P.total p
  process : ∀ p t tfer, t < q.used → tfer.type ≠ .isochronous →
    P.total (P.process p t tfer).1 = sizeT (P.total p + tfer.actualLength)

/-- The bytes of the running callback that are not counted yet. -/
def State.credit (s : State σ) : Nat :=
  match s.callback with
  | .entered t => (s.tfers t).actualLength
  | .idle | .failing _ _ => 0

/-- The count is that of the callbacks so far, the running one's still to come. -/
def Accounted (P : Pump σ) (s : State σ) : Prop :=
  ∃ n, P.total s.pump = sizeT n ∧ countedBytes s.log = n + s.credit

theorem countedBytes_step (step : Step P q s e s') :
    countedBytes s'.log = countedBytes s.log + ((called s e).map Action.counted).sum := by
  rw [countedBytes, callbacks_step step, List.map_append, List.sum_append, countedBytes]

/-! ### What an awaitable knows of the bytes counted -/

variable {R : σ → Nat → Prop}

/-- `R p n` is kept, when `n` bytes were counted. -/
structure Tallies (P : Pump σ) (q : Request) (R : σ → Nat → Prop) : Prop where
  start : R P.start 0
  fill : ∀ {p n} t tfer, R p n → R (P.fill p t tfer).1 n
  process : ∀ {p n} t tfer, t < q.used → tfer.type ≠ .isochronous → R p n →
    R (P.process p t tfer).1 (n + tfer.actualLength)

def Tallied (R : σ → Nat → Prop) (s : State σ) : Prop := ∃ n, R s.pump n ∧ countedBytes s.log = n + s.credit

theorem Tallied.of_frame (tallied : Tallied R s) (pump : ∀ n, R s.pump n → R s'.pump n)
    (log : countedBytes s'.log = countedBytes s.log) (credit : s'.credit = s.credit) : Tallied R s' := by
  obtain ⟨n, knows, counted⟩ := tallied
  exact ⟨n, pump n knows, by rw [log, credit, counted]⟩

theorem Tallied.proceed (tallied : Tallied R s) (entered : s.callback = .entered t)
    (pump : ∀ n, R s.pump n → R s'.pump (n + (s.tfers t).actualLength))
    (log : countedBytes s'.log = countedBytes s.log) (left : s'.credit = 0) : Tallied R s' := by
  obtain ⟨n, knows, counted⟩ := tallied
  have credit : s.credit = (s.tfers t).actualLength := by rw [State.credit, entered]
  exact ⟨n + (s.tfers t).actualLength, pump n knows, by rw [log, counted, credit, left, Nat.add_zero]⟩

theorem tallied_step (tallies : Tallies P q R) (plain : q.NonIsochronous) (counted : Counted q s)
    (ordinary : Ordinary q s) (tallied : Tallied R s) (step : Step P q s e s') : Tallied R s' := by
  have log := countedBytes_step step
  have process : ∀ {u pump next}, s.callback = .entered u → P.process s.pump u (s.tfers u) = (pump, next) →
      ∀ n, R s.pump n → R pump (n + (s.tfers u).actualLength) := by
    intro u pump next entered exit n knows
    have used := counted.lt_used (counted.entered entered).2
    have after := tallies.process u (s.tfers u) used (ordinary.entered plain counted entered) knows
    rwa [exit] at after
  cases step with
  | ready | stopped | submitOk | submitFail | recordFailure | leaveLoop | requestStop | cancel | finishStop | resume =>
    exact tallied.of_frame (fun _ => id) log rfl
  | filled at_start =>
    have free := (counted.untouched (by simp [State.started, at_start])).1
    have pump : ∀ n, R s.pump n → R (fillLoop P q.positions s).pump n := by
      intro n knows
      apply fillLoop_positions (I := fun _ u => R u.pump n) knows
      intro t u _ before
      exact tallies.fill t (u.tfers t) before
    apply tallied.of_frame pump log
    simp only [State.credit, fillLoop_callback, free]
  | complete u c cancelled flying =>
    refine tallied.of_frame (fun _ => id) log ?_
    cases busy : s.callback with
    | idle | failing => simp only [State.credit, busy]
    | entered t =>
      have different : t ≠ u := counted.ne_of_flying flying (by rw [busy]; rfl)
      simp only [State.credit, busy, Function.update_of_ne different]
  | drain u free completed failed =>
    refine tallied.of_frame (by simp) ?_ ?_
    · simpa [called, Action.counted, failed] using log
    · simp [State.credit, free]
  | enter u free completed fine =>
    obtain ⟨n, knows, before⟩ := tallied
    rw [State.credit, free, Nat.add_zero] at before
    refine ⟨n, knows, ?_⟩
    simpa [called, Action.counted, fine, before, State.credit] using log
  | proceedResume u r pump entered exit =>
    exact tallied.proceed entered (by rw [resumeOnZero_pump]; exact process entered exit) log (by simp [State.credit])
  | proceedFail u r pump ec entered exit => exact tallied.proceed entered (process entered exit) log rfl
  | resubmitOk u pump fresh tfer entered exit => exact tallied.proceed entered (process entered exit) log rfl
  | resubmitFail u r pump fresh tfer entered failed exit => exact tallied.proceed entered (process entered exit) log rfl
  | storeFailure u ec failing =>
    apply tallied.of_frame (by simp) log
    simp [State.credit, failing]

theorem tallied_run (tallies : Tallies P q R) (regular : Regular P) (plain : q.NonIsochronous)
    (h : (machine P q).run (initial P q) es = some s) : Ordinary q s ∧ Tallied R s := by
  have kept : Counted q s ∧ Ordinary q s ∧ Tallied R s := by
    refine Machine.run_invariant (I := fun s => Counted q s ∧ Ordinary q s ∧ Tallied R s) ?_
      ⟨counted_initial P q, ordinary_initial P q, 0, tallies.start, rfl⟩ h
    rintro s e s' ⟨counted, ordinary, tallied⟩ step
    have step := step_cases step
    exact ⟨counted_step counted step, ordinary_step regular plain counted ordinary step,
      tallied_step tallies plain counted ordinary tallied step⟩
  exact kept.2

theorem Counts.tallies (counts : Counts P q) : Tallies P q fun p n => P.total p = sizeT n := by
  refine ⟨counts.start, fun t tfer knows => (counts.fill ..).trans knows, fun t tfer used plain knows => ?_⟩
  rw [counts.process _ t tfer used plain, knows]
  exact Word.wrap_wrap_add ..

theorem accounted_run (counts : Counts P q) (regular : Regular P) (plain : q.NonIsochronous)
    (h : (machine P q).run (initial P q) es = some s) : Ordinary q s ∧ Accounted P s :=
  tallied_run counts.tallies regular plain h

theorem resumed_count (counts : Counts P q) (regular : Regular P) (plain : q.NonIsochronous)
    (h : (machine P q).run (initial P q) es = some s) (resumed : s.resumed = some (ec, n)) :
    n = sizeT (countedBytes s.log) := by
  obtain ⟨_, rfl, ended⟩ := resumed_with h resumed
  obtain ⟨_, m, total, counted⟩ := accounted_run counts regular plain h
  rw [total, counted, State.credit, ended.free, Nat.add_zero]

/-! ### The two awaitables -/

theorem sequenceAwaitable_counts (q : Request) : Counts (sequenceAwaitable q) q := by
  refine ⟨rfl, fun _ _ _ => rfl, fun p t tfer _ plain => ?_⟩
  have counted : (sequenceAwaitable q).total ((sequenceAwaitable q).process p t tfer).1 =
      (SequenceAwaitable.count p tfer).1 := by
    rcases exit : (sequenceAwaitable q).process p t tfer with ⟨p', next⟩
    cases sequenceAwaitable_exit exit <;> rfl
  rw [counted, SequenceAwaitable.count_ordinary p plain]
  rfl

theorem CompleteSequenceAwaitable.total_eq (p : CompleteState) :
    total q p = sizeT (∑ t ∈ Finset.range q.used, (p.states t).total) := by
  rw [total]
  induction q.used with
  | zero => rfl
  | succ n ih =>
    rw [List.range_succ, List.foldl_append, ih, Finset.sum_range_succ]
    exact Word.wrap_wrap_add ..

/-- Whatever its exit, a callback adds to the total of its own transfer. -/
theorem completeSequenceAwaitable_totals {tfer : LibusbTransfer} (limit : Nat) (p : CompleteState)
    (plain : tfer.type ≠ .isochronous) (u : Nat) :
    (((completeSequenceAwaitable q limit).process p t tfer).1.states u).total =
      Function.update (fun u => (p.states u).total) t (sizeT ((p.states t).total + tfer.actualLength)) u := by
  rw [← CompleteSequenceAwaitable.subtotal_ordinary plain]
  rcases exit : (completeSequenceAwaitable q limit).process p t tfer with ⟨p', next⟩
  by_cases same : u = t
  · subst u
    rw [Function.update_self]
    cases completeSequenceAwaitable_exit exit <;> simp [CompleteSequenceAwaitable.counted]
  · rw [Function.update_of_ne same]
    cases completeSequenceAwaitable_exit exit <;> simp [Function.update_of_ne same]

theorem completeSequenceAwaitable_counts (q : Request) (limit : Nat) :
    Counts (completeSequenceAwaitable q limit) q := by
  refine ⟨?_, fun p t tfer => ?_, fun p t tfer used plain => ?_⟩
  · exact (CompleteSequenceAwaitable.total_eq _).trans (by simp [completeSequenceAwaitable]; rfl)
  · refine (CompleteSequenceAwaitable.total_eq _).trans (.trans ?_ (CompleteSequenceAwaitable.total_eq p).symm)
    refine congrArg sizeT (Finset.sum_congr rfl fun u _ => ?_)
    by_cases same : u = t
    · subst u; simp [CompleteSequenceAwaitable.fill]
    · simp [CompleteSequenceAwaitable.fill, Function.update_of_ne same]
  · apply (CompleteSequenceAwaitable.total_eq _).trans
    rw [Finset.sum_congr rfl fun u _ => completeSequenceAwaitable_totals limit p plain u]
    apply (Word.wrap_sum_update (fun u => (p.states u).total) (Finset.mem_range.mpr used) _).trans
    exact ((congrArg (fun n => sizeT (n + tfer.actualLength)) (CompleteSequenceAwaitable.total_eq p)).trans
      (Word.wrap_wrap_add ..)).symm

/-- Both awaitables return the bytes of all callbacks that found no error stored, as a `size_t`. -/
theorem count_is_undrained_bytes (q : Request) (limit : Nat) (es : List Event) (plain : q.NonIsochronous) :
    (∀ s ec n, (machine (sequenceAwaitable q) q).run (initial (sequenceAwaitable q) q) es = some s →
      s.resumed = some (ec, n) → n = sizeT (countedBytes s.log)) ∧
    (∀ s ec n, (machine (completeSequenceAwaitable q limit) q).run (initial (completeSequenceAwaitable q limit) q) es =
      some s → s.resumed = some (ec, n) → n = sizeT (countedBytes s.log)) :=
  ⟨fun _ _ _ => resumed_count (sequenceAwaitable_counts q) (sequenceAwaitable_regular q) plain,
    fun _ _ _ => resumed_count (completeSequenceAwaitable_counts q limit) (completeSequenceAwaitable_regular q limit)
      plain⟩

/-- The first transfer fails after two bytes, the second has moved four when it is called back. -/
def failureThenDrain : List Event :=
  [.suspend, .submit 0, .submit 0, .leaveLoop, .complete 0 ⟨.error, 2, []⟩, .complete 1 ⟨.completed, 4, []⟩,
    .callback 0, .proceed 0, .storeFailure, .callback 1, .resume]

theorem twoBulk_nonIsochronous : twoBulk.NonIsochronous := fun _ _ => by simp [twoBulk]

theorem count_is_undrained_bytes_two_bulk :
    (∃ s, (machine (sequenceAwaitable twoBulk) twoBulk).run (initial (sequenceAwaitable twoBulk) twoBulk)
      failureThenDrain = some s ∧ 2 = sizeT (countedBytes s.log)) ∧
    (∃ s, (machine (completeSequenceAwaitable twoBulk 4) twoBulk).run
      (initial (completeSequenceAwaitable twoBulk 4) twoBulk) failureThenDrain = some s ∧
      2 = sizeT (countedBytes s.log)) :=
  ⟨⟨_, rfl, (count_is_undrained_bytes twoBulk 4 failureThenDrain twoBulk_nonIsochronous).1 _ _ 2 rfl rfl⟩,
    ⟨_, rfl, (count_is_undrained_bytes twoBulk 4 failureThenDrain twoBulk_nonIsochronous).2 _ _ 2 rfl rfl⟩⟩

/-- The drained callback's four bytes are missing from the result. -/
theorem drained_bytes_are_not_counted :
    (∃ s, (machine (sequenceAwaitable twoBulk) twoBulk).run (initial (sequenceAwaitable twoBulk) twoBulk)
      failureThenDrain = some s ∧ s.resumed = some (makeTransferStatus TransferStatus.error.code, 2) ∧
      movedBytes s.log = 6) ∧
    (∃ s, (machine (completeSequenceAwaitable twoBulk 4) twoBulk).run
      (initial (completeSequenceAwaitable twoBulk 4) twoBulk) failureThenDrain = some s ∧
      s.resumed = some (makeTransferStatus TransferStatus.error.code, 2) ∧ movedBytes s.log = 6) :=
  ⟨⟨_, rfl, rfl, rfl⟩, ⟨_, rfl, rfl, rfl⟩⟩

end CoUsb.Transfer

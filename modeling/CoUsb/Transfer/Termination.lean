import CoUsb.Lib.Ranking
import CoUsb.Transfer.Windows

/-!
# The end of complete I/O

What a complete operation has still to do: the buffers not taken yet, the bytes open in the buffers its transfers
hold and the transfers in flight. A transfer continues in its buffer as long as its total is below the size, and the
total also has the bytes of the buffers before.
-/

namespace CoUsb.Transfer

variable {q : Request} {limit : Nat} {s s' : State CompleteState} {e : Event} {es : List Event} {t : Nat}

/-- A transfer that completes has moved something if it asked for something. -/
def Delivers (s : State CompleteState) : Event → Prop
  | .complete t c => c.status = .completed → 0 < (s.tfers t).length → 0 < c.actualLength
  | _ => True

instance (s : State CompleteState) : ∀ e, Decidable (Delivers s e)
  | .complete _ _ => inferInstanceAs (Decidable (_ → _))
  | .suspend | .submit _ | .recordFailure | .leaveLoop | .callback _ | .proceed _ | .storeFailure | .requestStop
  | .cancel | .finishStop | .resume => isTrue trivial

def Event.isCallback : Event → Bool
  | .callback _ => true
  | _ => false

/-! ### What is left to do -/

/-- The submissions the buffers from `j` on can take, one for each byte and one for an empty buffer. -/
def untaken (q : Request) (j : Nat) : Nat := ((q.sizes.drop j).map (max 1)).sum

/-- The bytes open in a buffer behind the one its transfer moves at least. -/
def TransferProgress.open (prg : TransferProgress) : Nat := prg.expected - prg.total - 1

/-- The submissions that can still follow those made. -/
def remaining (q : Request) (p : CompleteState) : Nat :=
  untaken q p.bufCurrent + ∑ t ∈ Finset.range q.used, (p.states t).open

def outstanding (q : Request) (s : State CompleteState) : Nat := remaining q s.pump + s.inFlight

/-- The submissions a callback makes. -/
def Next.submissions : Next → Nat
  | .submit _ _ => 1
  | .resume | .fail _ => 0

/-- The submissions of the loop that are still to come. -/
def unsubmitted (q : Request) (s : State CompleteState) : Nat :=
  match s.suspend with
  | .submitting i => q.used - i
  | _ => 0

theorem untaken_succ {j : Nat} (left : j < q.sizes.length) :
    untaken q j = max 1 (q.sizes.getD j 0) + untaken q (j + 1) := by
  have here : q.sizes.getD j 0 = q.sizes[j] := by simp [left]
  rw [untaken, List.drop_eq_getElem_cons left, List.map_cons, List.sum_cons, here, untaken]

theorem sum_untaken {n : Nat} (within : n ≤ q.sizes.length) :
    ∑ t ∈ Finset.range n, max 1 (q.sizes.getD t 0) + untaken q n = untaken q 0 := by
  induction n with
  | zero => simp
  | succ n ih =>
    rw [Finset.sum_range_succ, ← ih (Nat.le_of_succ_le within), untaken_succ within, Nat.add_assoc]

/-! ### The length of a submission -/

/-- A transfer that holds a buffer with bytes in it asks for some. -/
def Asking (q : Request) (s : State CompleteState) : Prop :=
  s.started = true → ∀ t, t < q.used → 0 < q.sizes.getD (bufferOf s.tfers t) 0 → 0 < (s.tfers t).length

def Asked (q : Request) (log : List Action) : Prop :=
  EachSubmission (fun _ _ tfer => 0 < q.sizes.getD tfer.buffer.buffer 0 → 0 < tfer.length) log

theorem toInt_pos {n : Nat} (some_bytes : 0 < n) (positive : 0 < limit) (limited : limit < 2 ^ 31) :
    0 < toInt (min n limit) := by
  rw [(toInt_small n limited).1]
  omega

theorem asks_again {pump : CompleteState} {fresh : Bool} {tfer : LibusbTransfer} (positive : 0 < limit)
    (limited : limit < 2 ^ 31) (advancing : Advancing q s) (working : Working q s t)
    (exit : (completeSequenceAwaitable q limit).process s.pump t (s.tfers t) = (pump, .submit fresh tfer)) :
    0 < q.sizes.getD tfer.buffer.buffer 0 → 0 < tfer.length := by
  cases completeSequenceAwaitable_exit exit with
  | next =>
    intro some_bytes
    exact toInt_pos some_bytes positive limited
  | again _ short =>
    intro _
    have small : (s.pump.states t).expected < 2 ^ 64 := by
      rw [(advancing.working t working).1.expected]
      exact q.size_lt _
    apply toInt_pos _ positive limited
    rw [Word.sub_of_le short.le small]
    exact Nat.sub_pos_of_lt short

theorem asking_step (positive : 0 < limit) (limited : limit < 2 ^ 31) (counted : Counted q s)
    (handed : CompleteHanded q s) (advancing : Advancing q s) (asking : Asking q s)
    (step : Step (completeSequenceAwaitable q limit) q s e s') : Asking q s' := by
  cases step with
  | ready | stopped => intro now; cases now
  | filled at_start =>
    obtain ⟨_, assigned⟩ := fillLoop_progress limit handed at_start
    intro _ t used
    obtain ⟨total, tfer, prg, given⟩ := assigned t used
    dsimp only
    rw [bufferOf, given]
    intro some_bytes
    exact toInt_pos some_bytes positive limited
  | submitOk i at_loop | submitFail i r at_loop | recordFailure i r at_loop | leaveLoop at_loop =>
    exact fun _ => asking (by simp [State.started, at_loop])
  | complete u c =>
    intro now t used
    dsimp only
    rw [bufferOf_finish, (finish_window s.tfers u c t).2]
    exact asking now t used
  | drain | storeFailure | proceedResume =>
    intro now t used
    rw [resumeOnZero_tfers]
    exact asking ((started_congr (by simp)).symm.trans now) t used
  | resubmitOk u pump fresh tfer entered exit | resubmitFail u r pump fresh tfer entered failed exit =>
    have again := asks_again positive limited advancing (working_entered counted entered) exit
    intro now t used
    dsimp only
    by_cases same : t = u
    · subst t
      rw [bufferOf_update_self, Function.update_self]
      exact again
    · rw [bufferOf_update_of_ne same, Function.update_of_ne same]
      exact asking now t used
  | enter | proceedFail | requestStop | cancel | finishStop | resume => exact asking

theorem asked_step (positive : 0 < limit) (limited : limit < 2 ^ 31) (counted : Counted q s) (advancing : Advancing q s)
    (asking : Asking q s) (asked : Asked q s.log) (step : Step (completeSequenceAwaitable q limit) q s e s') :
    Asked q s'.log := by
  apply eachSubmission_step asked step
  · intro i at_loop more
    have looped := counted.submitting at_loop
    exact asking (by simp [State.started, at_loop]) i (lt_of_le_of_ne looped.1 more)
  · intro u pump fresh tfer entered exit
    exact asks_again positive limited advancing (working_entered counted entered) exit

/-! ### One callback -/

theorem remaining_update {p : CompleteState} {prg : TransferProgress} {cur n : Nat} (used : t < q.used)
    (spent : prg.open + untaken q cur + n ≤ (p.states t).open + untaken q p.bufCurrent) :
    remaining q ⟨Function.update p.states t prg, cur⟩ + n ≤ remaining q p := by
  have change : _ = ∑ u ∈ Finset.range q.used, (p.states u).open + prg.open := sum_update TransferProgress.open used
  simp only [remaining]
  omega

/-- What `transfer_callback` uses up: at least one submission if it makes one. -/
theorem remaining_process {pump : CompleteState} {next : Next} (handed : CompleteHanded q s) (used : t < q.used)
    (counts : (CompleteSequenceAwaitable.counted s.pump t (s.tfers t)).total =
      (s.pump.states t).total + (s.tfers t).actualLength)
    (delivered : (s.tfers t).status = .completed → (s.pump.states t).total < (s.pump.states t).expected →
      0 < (s.tfers t).actualLength)
    (exit : (completeSequenceAwaitable q limit).process s.pump t (s.tfers t) = (pump, next)) :
    remaining q pump + next.submissions ≤ remaining q s.pump := by
  have expected : (CompleteSequenceAwaitable.counted s.pump t (s.tfers t)).expected = (s.pump.states t).expected := rfl
  cases completeSequenceAwaitable_exit exit with
  | failed | finished =>
    apply remaining_update used
    simp only [TransferProgress.open, Next.submissions, expected, counts]
    omega
  | next _ _ left =>
    have taken := untaken_succ (lt_of_le_of_ne handed.cur_le left)
    apply remaining_update used
    simp only [TransferProgress.open, Next.submissions, Request.buffer]
    omega
  | again completed short =>
    have some_bytes := delivered completed (by omega)
    apply remaining_update used
    simp only [TransferProgress.open, Next.submissions, expected, counts] at short ⊢
    omega

/-! ### One step -/

structure PumpInvariant (q : Request) (s : State CompleteState) : Prop where
  window : WindowInvariant q s
  delivered : Landed (fun tfer => tfer.status = .completed → 0 < tfer.length → 0 < tfer.actualLength) s
  asking : Asking q s
  asked : Asked q s.log

/-- What a step spends of what is left to do. -/
structure Spends (q : Request) (s : State CompleteState) (e : Event) (s' : State CompleteState) : Prop where
  callbacks : outstanding q s' + e.isCallback.toNat ≤ outstanding q s
  submissions : (Transfer.submissions s'.log).length + remaining q s'.pump + unsubmitted q s' ≤
    (Transfer.submissions s.log).length + remaining q s.pump + unsubmitted q s

theorem PumpInvariant.process {pump : CompleteState} {next : Next} (plain : q.NonIsochronous)
    (small : q.sizes.sum < 2 ^ 64) (inv : PumpInvariant q s) (entered : s.callback = .entered t)
    (exit : (completeSequenceAwaitable q limit).process s.pump t (s.tfers t) = (pump, next)) :
    remaining q pump + next.submissions ≤ remaining q s.pump := by
  obtain ⟨⟨complete, bounded, advancing, _⟩, delivered, asking, _⟩ := inv
  have working := working_entered complete.counted entered
  have type := complete.ordinary.entered plain complete.counted entered
  have counts := congrArg TransferProgress.total (advancing.counted bounded small entered working.2.1 type)
  refine remaining_process complete.handed working.2.1 counts ?_ exit
  intro completed short
  have expected := (advancing.working t working).1.expected
  exact delivered t (Or.inr entered) completed (asking working.1 t working.2.1 (by omega))

theorem length_submit (log : List Action) (origin : Submitter) (t : Nat) (tfer : LibusbTransfer) (r : Int) :
    (submissions (log ++ [.submit origin t tfer r])).length = (submissions log).length + 1 := by
  simp [Action.submits]

theorem length_resubmit (log : List Action) (fresh : Bool) (t : Nat) (tfer : LibusbTransfer) (r : Int) :
    (submissions (log ++ (if fresh then [.take t tfer.buffer.buffer] else []) ++
      [.submit .callback t tfer r])).length = (submissions log).length + 1 := by
  rw [length_submit, submissions_append, submissions_taken, List.append_nil]

theorem Spends.of_remaining {n : Nat} (spent : remaining q s'.pump + n ≤ remaining q s.pump)
    (inFlight : s'.inFlight + e.isCallback.toNat ≤ s.inFlight + n)
    (submissions : (Transfer.submissions s'.log).length + unsubmitted q s' ≤
      (Transfer.submissions s.log).length + unsubmitted q s + n) : Spends q s e s' := by
  constructor
  · simp only [outstanding]
    omega
  · omega

/-- The first loop takes one buffer for each transfer, and all of these are in flight or to be submitted. -/
theorem filled_spends (handed : CompleteHanded q s) (at_start : s.suspend = .start) :
    Spends q s .suspend (s.fill (completeSequenceAwaitable q limit) q) := by
  have zero := handed.start (by simp [State.started, at_start])
  obtain ⟨cur, _, _⟩ := fillLoop_assigns (completeSequenceAwaitable_sequential q limit) handed at_start
  obtain ⟨_, assigned⟩ := fillLoop_progress limit handed at_start
  have calls := (callbacks_fillLoop (completeSequenceAwaitable q limit) q.positions s).2
  have opened : ∑ t ∈ Finset.range q.used,
      ((fillLoop (completeSequenceAwaitable q limit) q.positions s).pump.states t).open + q.used ≤
      ∑ t ∈ Finset.range q.used, max 1 (q.sizes.getD t 0) := by
    calc ∑ t ∈ Finset.range q.used,
          ((fillLoop (completeSequenceAwaitable q limit) q.positions s).pump.states t).open + q.used
        = ∑ t ∈ Finset.range q.used,
          (((fillLoop (completeSequenceAwaitable q limit) q.positions s).pump.states t).open + 1) := by
          simp [Finset.sum_add_distrib]
      _ ≤ ∑ t ∈ Finset.range q.used, max 1 (q.sizes.getD t 0) := by
          apply Finset.sum_le_sum
          intro t inside
          obtain ⟨total, _, prg, _⟩ := assigned t (Finset.mem_range.mp inside)
          rw [prg]
          simp only [TransferProgress.open, Request.buffer]
          omega
  have all := sum_untaken q.used_le_length
  apply Spends.of_remaining (n := q.used)
  · simp only [remaining, cur, zero]
    omega
  · simp [Event.isCallback]
  · dsimp only
    rw [calls]
    simp [unsubmitted, at_start]

theorem spends_step (plain : q.NonIsochronous) (small : q.sizes.sum < 2 ^ 64) (inv : PumpInvariant q s)
    (step : Step (completeSequenceAwaitable q limit) q s e s') : Spends q s e s' := by
  have counted := inv.window.complete.counted
  cases step with
  | filled at_start => exact filled_spends inv.window.complete.handed at_start
  | submitOk i at_loop more | submitFail i r at_loop more =>
    have looped := counted.submitting at_loop
    have below := lt_of_le_of_ne looped.1 more
    refine .of_remaining (n := 0) le_rfl le_rfl ?_
    simp only [unsubmitted, at_loop, length_submit]
    omega
  | ready at_start | stopped at_start | recordFailure _ _ at_start | leaveLoop at_start =>
    exact .of_remaining (n := 0) le_rfl le_rfl (by simp [unsubmitted, at_start])
  | drain u free landed =>
    have one := counted.sub_one (by simp [landed] : s.flight u ≠ .idle)
    exact .of_remaining (n := 0) (by simp) (by simp [Event.isCallback, one]) (by simp [unsubmitted, Action.submits])
  | enter u free landed =>
    have one := counted.sub_one (by simp [landed] : s.flight u ≠ .idle)
    exact .of_remaining (n := 0) le_rfl (by simp [Event.isCallback, one]) (by simp [unsubmitted, Action.submits])
  | proceedResume u r pump entered exit =>
    have spent := inv.process plain small entered exit
    exact .of_remaining (n := 0) (by simpa [Next.submissions] using spent) (by simp [Event.isCallback])
      (by simp [unsubmitted])
  | proceedFail u r pump ec entered exit =>
    have spent := inv.process plain small entered exit
    exact .of_remaining (n := 0) spent le_rfl le_rfl
  | resubmitOk u pump fresh tfer entered exit =>
    have spent := inv.process plain small entered exit
    have wrapped : sizeT (s.inFlight + 1) ≤ s.inFlight + 1 := Word.wrap_le 64 _
    refine .of_remaining (n := 1) spent wrapped ?_
    rw [length_resubmit]
    simp only [unsubmitted]
    omega
  | resubmitFail u r pump fresh tfer entered failed exit =>
    have spent := inv.process plain small entered exit
    refine .of_remaining (n := 1) spent (Nat.le_succ _) ?_
    rw [length_resubmit]
    simp only [unsubmitted]
    omega
  | storeFailure => exact .of_remaining (n := 0) (by simp) (by simp [Event.isCallback]) (by simp [unsubmitted])
  | complete | requestStop | cancel | finishStop | resume =>
    exact .of_remaining (n := 0) le_rfl le_rfl (by simp [unsubmitted, Action.submits])

/-! ### Runs -/

theorem pump_initial (q : Request) (limit : Nat) :
    PumpInvariant q (initial (completeSequenceAwaitable q limit) q) :=
  ⟨window_initial q limit, by simp [Landed, initial], by simp [Asking, initial, State.started], Log.always_nil⟩

theorem remaining_initial (q : Request) (limit : Nat) :
    remaining q (initial (completeSequenceAwaitable q limit) q).pump = untaken q 0 := by
  simp [remaining, initial, completeSequenceAwaitable, TransferProgress.open]

theorem outstanding_initial (q : Request) (limit : Nat) :
    outstanding q (initial (completeSequenceAwaitable q limit) q) = (q.sizes.map (max 1)).sum :=
  remaining_initial q limit

theorem pump_step (plain : q.NonIsochronous) (small : q.sizes.sum < 2 ^ 64) (positive : 0 < limit)
    (limited : limit < 2 ^ 31) (inv : PumpInvariant q s) (delivers : Delivers s e)
    (step : Step (completeSequenceAwaitable q limit) q s e s') : PumpInvariant q s' := by
  obtain ⟨window, delivered, asking, asked⟩ := inv
  have counted := window.complete.counted
  refine ⟨window_step limited plain small window step, landed_step counted delivered step ?_,
    asking_step positive limited counted window.complete.handed window.advancing asking step,
    asked_step positive limited counted window.advancing asking asked step⟩
  rintro t c rfl _
  exact delivers

theorem outstanding_ranks (plain : q.NonIsochronous) (small : q.sizes.sum < 2 ^ 64) (positive : 0 < limit)
    (limited : limit < 2 ^ 31) :
    (machine (completeSequenceAwaitable q limit) q).Ranking (PumpInvariant q) Delivers Event.isCallback
      (outstanding q) where
  keep inv delivers step := pump_step plain small positive limited inv delivers (step_cases step)
  falls inv _ step := (spends_step plain small inv (step_cases step)).callbacks

theorem pump_run (plain : q.NonIsochronous) (small : q.sizes.sum < 2 ^ 64) (positive : 0 < limit)
    (limited : limit < 2 ^ 31)
    (delivers : (machine (completeSequenceAwaitable q limit) q).Meets Delivers
      (initial (completeSequenceAwaitable q limit) q) es)
    (h : (machine (completeSequenceAwaitable q limit) q).run (initial (completeSequenceAwaitable q limit) q) es =
      some s) :
    PumpInvariant q s ∧ (submissions s.log).length + remaining q s.pump + unsubmitted q s ≤ untaken q 0 := by
  refine Machine.run_invariant_of_meets (I := fun s => PumpInvariant q s ∧
    (submissions s.log).length + remaining q s.pump + unsubmitted q s ≤ untaken q 0) ?_ ⟨pump_initial q limit, ?_⟩ h
    delivers
  · rintro s e s' ⟨inv, paid⟩ delivers step
    have step := step_cases step
    exact ⟨pump_step plain small positive limited inv delivers step,
      (spends_step plain small inv step).submissions.trans paid⟩
  · rw [remaining_initial]
    simp [unsubmitted, initial]

/-- What is left to do falls with every callback of a complete operation, whatever is submitted asks for something
unless it is for an empty buffer, there are no more submissions than bytes and empty buffers, and the callbacks come
to an end. -/
theorem complete_pump_ends (q : Request) (limit : Nat) (plain : q.NonIsochronous) (small : q.sizes.sum < 2 ^ 64)
    (positive : 0 < limit) (limited : limit < 2 ^ 31) :
    (∀ es s, (machine (completeSequenceAwaitable q limit) q).run (initial (completeSequenceAwaitable q limit) q) es =
        some s →
      (machine (completeSequenceAwaitable q limit) q).Meets Delivers (initial (completeSequenceAwaitable q limit) q) es →
      (∀ e s', (machine (completeSequenceAwaitable q limit) q).step s e = some s' →
        outstanding q s' ≤ outstanding q s ∧ (e.isCallback = true → outstanding q s' < outstanding q s)) ∧
      Asked q s.log ∧ (submissions s.log).length ≤ (q.sizes.map (max 1)).sum ∧
      es.countP Event.isCallback ≤ (q.sizes.map (max 1)).sum) ∧
    ∀ states events, states 0 = initial (completeSequenceAwaitable q limit) q →
      (machine (completeSequenceAwaitable q limit) q).Endless Delivers states events →
      ∃ n, ∀ k, n ≤ k → (events k).isCallback = false := by
  constructor
  · intro es s h delivers
    obtain ⟨inv, paid⟩ := pump_run plain small positive limited delivers h
    refine ⟨fun e s' step => ?_, inv.asked, ?_, ?_⟩
    · have falls := (spends_step plain small inv (step_cases step)).callbacks
      refine ⟨(Nat.le_add_right _ _).trans falls, fun callback => ?_⟩
      rw [callback] at falls
      exact falls
    · exact ((Nat.le_add_right _ _).trans (Nat.le_add_right _ _)).trans paid
    · have bound := (outstanding_ranks plain small positive limited).bounds (pump_initial q limit) h delivers
      rw [outstanding_initial] at bound
      exact (Nat.le_add_right _ _).trans bound
  · intro states events start endless
    exact (outstanding_ranks plain small positive limited).eventually endless (start ▸ pump_initial q limit)

theorem complete_pump_ends_reused :
    ∃ s, (machine (completeSequenceAwaitable reusedBulk 4) reusedBulk).run
        (initial (completeSequenceAwaitable reusedBulk 4) reusedBulk) bothInFull = some s ∧
      Asked reusedBulk s.log ∧ (submissions s.log).length ≤ (reusedBulk.sizes.map (max 1)).sum ∧
      bothInFull.countP Event.isCallback ≤ (reusedBulk.sizes.map (max 1)).sum :=
  ⟨_, rfl, ((complete_pump_ends reusedBulk 4 reusedBulk_nonIsochronous (by decide) (by decide) (by decide)).1
    bothInFull _ rfl (by decide)).2⟩

end CoUsb.Transfer

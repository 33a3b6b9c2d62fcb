import CoUsb.Transfer.Progress

/-!
# The buffers of a complete operation

A transfer's total is not reset for its next buffer, so a transfer that is used again moves
on too early unless one completion fills the buffer.
-/

namespace CoUsb.Transfer

variable {q : Request} {limit : Nat} {s s' : State CompleteState} {e : Event} {es : List Event} {ec : ErrorCode}
  {t j n : Nat}

/-! ### Runs -/

structure CompleteInvariant (q : Request) (s : State CompleteState) : Prop where
  counted : Counted q s
  ordinary : Ordinary q s
  handed : CompleteHanded q s
  busy : Clean s → Busy q CompleteState.bufCurrent s
  holding : Clean s → Holding q s

theorem CompleteInvariant.clean_of_step (inv : CompleteInvariant q s)
    (step : Step (completeSequenceAwaitable q limit) q s e s') (clean : Clean s') : Clean s :=
  Transfer.clean_of_step inv.counted inv.ordinary step clean

theorem complete_step (plain : q.NonIsochronous) (small : q.sizes.sum < 2 ^ 64) (inv : CompleteInvariant q s)
    (step : Step (completeSequenceAwaitable q limit) q s e s') : CompleteInvariant q s' := by
  have before := inv.clean_of_step step
  obtain ⟨counted, ordinary, handed, busy, holding⟩ := inv
  have sequential := completeSequenceAwaitable_sequential q limit
  exact ⟨counted_step counted step,
    ordinary_step (completeSequenceAwaitable_regular q limit) plain counted ordinary step,
    handed_step sequential counted handed step,
    fun clean => busy_step sequential counted ordinary (busy (before clean)) step clean,
    fun clean => holding_step plain small counted ordinary handed (holding (before clean))
      (clean_step counted ordinary step clean)⟩

theorem complete_initial (q : Request) (limit : Nat) :
    CompleteInvariant q (initial (completeSequenceAwaitable q limit) q) :=
  ⟨counted_initial _ q, ordinary_initial _ q, handed_initial (completeSequenceAwaitable_sequential q limit),
    fun _ => by simp [Busy, initial, State.started], fun _ => holding_initial q limit⟩

theorem complete_run (plain : q.NonIsochronous) (small : q.sizes.sum < 2 ^ 64)
    (h : (machine (completeSequenceAwaitable q limit) q).run (initial (completeSequenceAwaitable q limit) q) es =
      some s) : CompleteInvariant q s :=
  Machine.run_invariant (fun inv step => complete_step plain small inv (step_cases step)) (complete_initial q limit) h

/-- A property that the steps without an error keep, where they meet `C`, holds at the end of
a run without an error. -/
theorem clean_run {I : State CompleteState → Prop} {C : State CompleteState → Event → Prop} (plain : q.NonIsochronous)
    (small : q.sizes.sum < 2 ^ 64) (inv : CompleteInvariant q s)
    (keep : ∀ {u f v}, CompleteInvariant q u → CompleteInvariant q v → Clean u → Clean v → C u f →
      CleanStep q limit u f v → I u → I v) (start : Clean s → I s)
    (h : (machine (completeSequenceAwaitable q limit) q).run s es = some s')
    (meets : (machine (completeSequenceAwaitable q limit) q).Meets C s es) (clean : Clean s') : Clean s ∧ I s' := by
  have kept : CompleteInvariant q s' ∧ (Clean s' → Clean s ∧ I s') := by
    refine Machine.run_invariant_of_meets (I := fun u => CompleteInvariant q u ∧ (Clean u → Clean s ∧ I u)) ?_
      ⟨inv, fun clean => ⟨clean, start clean⟩⟩ h meets
    rintro u f v ⟨inv, held⟩ condition step
    have step := step_cases step
    have next := complete_step plain small inv step
    refine ⟨next, fun clean => ?_⟩
    have before := inv.clean_of_step step clean
    obtain ⟨first, here⟩ := held before
    exact ⟨first, keep inv next before clean condition (clean_step inv.counted inv.ordinary step clean) here⟩
  exact kept.2 clean

/-! ### Buffers that were filled -/

/-- The callback of a transfer that has moved bytes of an earlier buffer moves all that is
left of the one it holds. -/
def Completes (s : State CompleteState) : Event → Prop
  | .proceed _ => ∀ t, s.callback = .entered t →
      (s.pump.states t).total = (s.pump.states t).ptr.offset ∨
      (s.pump.states t).ptr.offset + (s.tfers t).actualLength = (s.pump.states t).expected
  | _ => True

instance decidableEntered (c : Callback) (p : Nat → Prop) [DecidablePred p] :
    Decidable (∀ t, c = .entered t → p t) :=
  match c with
  | .entered t => decidable_of_iff (p t) (by simp)
  | .idle | .failing _ _ => isTrue (by simp)

instance (s : State CompleteState) : ∀ e, Decidable (Completes s e)
  | .proceed _ => inferInstanceAs (Decidable (∀ t, s.callback = .entered t → _ ∨ _))
  | .suspend | .submit _ | .recordFailure | .leaveLoop | .complete _ _ | .callback _ | .storeFailure | .requestStop
  | .cancel | .finishStop | .resume => isTrue trivial

/-- Every buffer handed out is held by a transfer at work or was processed in full. -/
def Filled (q : Request) (s : State CompleteState) : Prop :=
  ∀ j, j < s.pump.bufCurrent → (∃ t, Live q s t ∧ bufferOf s.tfers t = j) ∨ deliveredTo s.log j = q.sizes.getD j 0

theorem full_of_completes (plain : q.NonIsochronous) (small : q.sizes.sum < 2 ^ 64) (inv : CompleteInvariant q s)
    (clean : Clean s) {r : Int} (completes : Completes s (.proceed r)) (entered : s.callback = .entered t)
    (done : (s.pump.states t).expected ≤ (CompleteSequenceAwaitable.counted s.pump t (s.tfers t)).total) :
    deliveredTo s.log (bufferOf s.tfers t) = q.sizes.getD (bufferOf s.tfers t) 0 := by
  have holding := inv.holding clean
  have live := live_entered inv.counted entered
  have within := holding.within (bufferOf s.tfers t)
  obtain ⟨_, expected, _, _, _, got⟩ := holding.live t live
  rw [(credit_entered entered).2] at got
  rw [holding.counted small entered live.2.1 (inv.ordinary.entered plain inv.counted entered)] at done
  rcases completes t entered with first | whole <;> dsimp only at done <;> omega

theorem Filled.of_quiet (filled : Filled q s) (quiet : Quiet q s s') : Filled q s' := by
  intro j bound
  rw [quiet.pump] at bound
  refine (filled j bound).imp (fun ⟨u, live, here⟩ => ?_) (quiet.delivered j).trans
  exact ⟨u, (quiet.live u).mpr live, (quiet.buffer u).trans here⟩

theorem deliveredTo_resubmit (pump : CompleteState) (fresh : Bool) (tfer : LibusbTransfer) (j : Nat) :
    deliveredTo (s.resubmit t pump fresh tfer).log j = deliveredTo s.log j := by
  simp [deliveredTo, Action.isCallback]

theorem filled_resubmit {pump : CompleteState} {fresh : Bool} {tfer : LibusbTransfer} (plain : q.NonIsochronous)
    (small : q.sizes.sum < 2 ^ 64) (inv : CompleteInvariant q s) (clean : Clean s)
    (completes : Completes s (.proceed 0)) (entered : s.callback = .entered t)
    (exit : (completeSequenceAwaitable q limit).process s.pump t (s.tfers t) = (pump, .submit fresh tfer))
    (filled : Filled q s) : Filled q (s.resubmit t pump fresh tfer) := by
  have work := fun v => (live_resubmit pump fresh tfer inv.counted entered v).mpr
  have live := live_entered inv.counted entered
  intro j bound
  rw [deliveredTo_resubmit]
  cases completeSequenceAwaitable_exit exit with
  | next _ done =>
    rcases Nat.lt_succ_iff_lt_or_eq.mp bound with old | rfl
    · rcases filled j old with ⟨v, live, here⟩ | already
      · by_cases same : v = t
        · subst v
          exact Or.inr (here ▸ full_of_completes plain small inv clean completes entered done)
        · exact Or.inl ⟨v, work v live, by simpa [bufferOf, Function.update_of_ne same] using here⟩
      · exact Or.inr already
    · exact Or.inl ⟨t, work t live, by simp [bufferOf, Request.buffer]⟩
  | again =>
    rcases filled j bound with ⟨v, live, here⟩ | already
    · refine Or.inl ⟨v, work v live, ?_⟩
      by_cases same : v = t
      · subst v
        rw [← here, bufferOf, bufferOf, ((inv.holding clean).live t live).ptr]
        simp
      · simpa [bufferOf, Function.update_of_ne same] using here
    · exact Or.inr already

theorem filled_step (plain : q.NonIsochronous) (small : q.sizes.sum < 2 ^ 64) (inv : CompleteInvariant q s)
    (inv' : CompleteInvariant q s') (clean : Clean s) (clean' : Clean s') (completes : Completes s e)
    (step : CleanStep q limit s e s') (filled : Filled q s) : Filled q s' := by
  have counted := inv.counted
  cases step with
  | quiet quiet => exact filled.of_quiet quiet
  | submit i at_loop => exact filled.of_quiet (quiet_submit counted at_loop)
  | filled at_start =>
    obtain ⟨pump, _, assigned⟩ := fillLoop_assigns (completeSequenceAwaitable_sequential q limit) inv.handed at_start
    intro j bound
    have used : j < q.used := bound.trans_eq pump
    exact Or.inl ⟨j, live_filled counted at_start used, (assigned j used).1⟩
  | enter u free landed =>
    intro j bound
    apply (filled j bound).imp (fun ⟨v, live, here⟩ => ⟨v, (live_enter counted free landed v).mpr live, here⟩)
    refine fun already => (((inv'.holding clean').within j).antisymm ?_)
    dsimp only
    rw [deliveredTo_callback, already]
    exact Nat.le_add_right _ _
  | finish u r pump entered exit =>
    cases completeSequenceAwaitable_exit exit with
    | finished _ done =>
      intro j bound
      rw [resumeOnZero_pump] at bound
      rw [deliveredTo, callbacks_resumeOnZero, resumeOnZero_tfers]
      rcases filled j bound with ⟨v, live, here⟩ | already
      · by_cases same : v = u
        · subst v
          exact Or.inr (here ▸ full_of_completes plain small inv clean completes entered done)
        · exact Or.inl ⟨v, (live_finish _ counted entered v).mpr ⟨same, live⟩, here⟩
      · exact Or.inr already
  | resubmit u pump fresh tfer entered exit =>
    exact filled_resubmit plain small inv clean completes entered exit filled

/-! ### Buffers that were left too early -/

/-- A buffer that will not be processed in full: what its transfer has counted exceeds what
it has moved into it. -/
structure Short (q : Request) (s : State CompleteState) (j : Nat) : Prop where
  taken : j < s.pump.bufCurrent
  less : deliveredTo s.log j < q.sizes.getD j 0
  early : ∀ t, Live q s t → bufferOf s.tfers t = j → (s.pump.states t).ptr.offset < (s.pump.states t).total ∧
    (s.callback = .entered t ∨ (s.pump.states t).total + (s.tfers t).length.toNat ≤ q.sizes.getD j 0)

theorem short_of_incomplete (counted : Counted q s) (handed : CompleteHanded q s) (holding : Holding q s)
    (entered : s.callback = .entered t)
    (used_again : (s.pump.states t).total ≠ (s.pump.states t).ptr.offset)
    (incomplete : (s.pump.states t).ptr.offset + (s.tfers t).actualLength ≠ (s.pump.states t).expected) :
    Short q s (bufferOf s.tfers t) := by
  have live := live_entered counted entered
  have within := holding.within (bufferOf s.tfers t)
  obtain ⟨_, expected, carried, _, _, got⟩ := holding.live t live
  rw [(credit_entered entered).2] at got
  refine ⟨handed.buffer_lt live.1 live.2.1, by omega, fun u work shared => ?_⟩
  obtain rfl := handed.exclusive work.1 work.2.1 live.2.1 shared
  exact ⟨by omega, Or.inl entered⟩

theorem Short.of_quiet (short : Short q s j) (quiet : Quiet q s s') : Short q s' j := by
  obtain ⟨taken, less, early⟩ := short
  refine ⟨by rwa [quiet.pump], by rwa [quiet.delivered], fun u live here => ?_⟩
  rw [quiet.pump, quiet.entered, (quiet.tfers u).2]
  exact early u ((quiet.live u).mp live) ((quiet.buffer u).symm.trans here)

theorem short_enter (inv : CompleteInvariant q s) (holding : Holding q s) (free : s.callback = .idle)
    (landed : s.flight t = .completed) (short : Short q s j) : Short q (s.enter t) j := by
  obtain ⟨taken, less, early⟩ := short
  have live := live_landed inv.counted landed
  refine ⟨taken, ?_, fun v work here => ?_⟩
  · dsimp only
    rw [deliveredTo_callback]
    split
    case isFalse => exact less
    case isTrue here =>
      obtain ⟨passed, room⟩ := early t live here
      have room := room.resolve_left (by simp [free])
      have fits := inv.ordinary.landed landed
      have got := (holding.live t live).got
      rw [(creditOf_free free t).2, bufferOf, here] at got
      omega
  · by_cases same : v = t
    · subst v
      exact ⟨(early t live here).1, Or.inl rfl⟩
    · have before := early v ((live_enter inv.counted free landed v).mp work) here
      exact ⟨before.1, Or.inr (before.2.resolve_left (by simp [free]))⟩

theorem short_resubmit {pump : CompleteState} {fresh : Bool} {tfer : LibusbTransfer} (plain : q.NonIsochronous)
    (small : q.sizes.sum < 2 ^ 64) (inv : CompleteInvariant q s) (holding : Holding q s)
    (entered : s.callback = .entered t)
    (exit : (completeSequenceAwaitable q limit).process s.pump t (s.tfers t) = (pump, .submit fresh tfer))
    (short : Short q s j) : Short q (s.resubmit t pump fresh tfer) j := by
  obtain ⟨taken, less, early⟩ := short
  have counted := inv.counted
  have others : ∀ v, v ≠ t → Live q s v → bufferOf s.tfers v = j →
      (s.pump.states v).ptr.offset < (s.pump.states v).total ∧
      (s.pump.states v).total + (s.tfers v).length.toNat ≤ q.sizes.getD j 0 := by
    intro v other live here
    obtain ⟨passed, room⟩ := early v live here
    exact ⟨passed, room.resolve_left fun running => other (Callback.entered.inj (running.symm.trans entered))⟩
  cases completeSequenceAwaitable_exit exit with
  | next _ done =>
    refine ⟨taken.trans (Nat.lt_succ_self _), by rwa [deliveredTo_resubmit], fun v work here => ?_⟩
    by_cases same : v = t
    · subst v
      simp only [bufferOf, Function.update_self, Request.buffer] at here
      exact absurd taken (by omega)
    · simp only [bufferOf, Function.update_of_ne same] at here ⊢
      obtain ⟨passed, room⟩ := others v same ((live_resubmit _ _ _ counted entered v).mp work) here
      exact ⟨passed, Or.inr room⟩
  | again _ unfilled =>
    refine ⟨taken, by rwa [deliveredTo_resubmit], fun v work here => ?_⟩
    by_cases same : v = t
    · subst v
      have live := live_entered counted entered
      have progress := holding.live t live
      have exact := holding.counted small entered live.2.1 (inv.ordinary.entered plain counted entered)
      have subtotal := CompleteSequenceAwaitable.subtotal_ordinary (inv.ordinary.entered plain counted entered)
      have holds : bufferOf s.tfers t = j := by simpa [bufferOf, progress.ptr] using here
      rw [(credit_entered entered).2, holds] at progress
      rw [exact, progress.expected] at unfilled
      have passed := (early t live holds).1
      have left := progress.left limit ((q.size_le_sum j).trans_lt small) unfilled
      simp only [Function.update_self, exact, subtotal, Pointer.add_offset]
      exact ⟨by omega, Or.inr left⟩
    · simp only [bufferOf, Function.update_of_ne same] at here ⊢
      obtain ⟨passed, room⟩ := others v same ((live_resubmit _ _ _ counted entered v).mp work) here
      exact ⟨passed, Or.inr room⟩

theorem short_step (plain : q.NonIsochronous) (small : q.sizes.sum < 2 ^ 64) (inv : CompleteInvariant q s)
    (clean : Clean s) (step : CleanStep q limit s e s') (short : Short q s j) : Short q s' j := by
  have counted := inv.counted
  have holding := inv.holding clean
  have ⟨taken, less, early⟩ := short
  cases step with
  | quiet quiet => exact short.of_quiet quiet
  | submit i at_loop => exact short.of_quiet (quiet_submit counted at_loop)
  | filled at_start =>
    have zero := inv.handed.start (by simp [State.started, at_start])
    exact absurd taken (by omega)
  | enter u free landed => exact short_enter inv holding free landed short
  | finish u r pump entered exit =>
    cases completeSequenceAwaitable_exit exit with
    | finished =>
      refine ⟨by simpa using taken, by simpa [deliveredTo] using less, fun v work here => ?_⟩
      obtain ⟨other, live⟩ := (live_finish _ counted entered v).mp work
      have before := early v live (by simpa [bufferOf] using here)
      simpa [entered, Function.update_of_ne other, Ne.symm other] using before
  | resubmit u pump fresh tfer entered exit => exact short_resubmit plain small inv holding entered exit short

/-! ### Operations without an error -/

def Next.takes : Next → Bool
  | .submit fresh _ => fresh
  | .resume | .fail _ => false

/-- A callback takes a further buffer only when the one its transfer holds was processed in full. -/
def MovesOnWhenFull (q : Request) (limit : Nat) (s : State CompleteState) : Event → Prop
  | .proceed _ => ∀ t, s.callback = .entered t →
      ((completeSequenceAwaitable q limit).process s.pump t (s.tfers t)).2.takes = true →
      deliveredTo s.log (bufferOf s.tfers t) = q.sizes.getD (bufferOf s.tfers t) 0
  | _ => True

/-- What a complete operation promises for a run into `s` that resumes with the total `n`. -/
structure ProcessedEveryBuffer (q : Request) (limit : Nat) (es : List Event) (s : State CompleteState) (n : Nat) :
    Prop where
  delivered : ∀ j, j < q.sizes.length → deliveredTo s.log j = q.sizes.getD j 0
  total : n = q.sizes.sum
  affine : (machine (completeSequenceAwaitable q limit) q).Meets (MovesOnWhenFull q limit)
    (initial (completeSequenceAwaitable q limit) q) es

theorem Filled.delivered (filled : Filled q s) (settled : Settled q s)
    (exhausted : s.pump.bufCurrent = q.sizes.length) :
    ∀ j, j < q.sizes.length → deliveredTo s.log j = q.sizes.getD j 0 := by
  intro j bound
  apply (filled j (exhausted ▸ bound)).resolve_left
  rintro ⟨t, ⟨_, used, work⟩, _⟩
  exact work.elim (settled.closed used) fun running => by simp [settled.free, Callback.transfer] at running

theorem clean_within {u : State CompleteState} {rest : List Event} (plain : q.NonIsochronous)
    (small : q.sizes.sum < 2 ^ 64) (inv : CompleteInvariant q u)
    (h : (machine (completeSequenceAwaitable q limit) q).run u rest = some s) (clean : Clean s) : Clean u :=
  (clean_run (I := fun _ => True) (C := fun _ _ => True) plain small inv (fun _ _ _ _ _ _ _ => trivial)
    (fun _ => trivial) h (fun _ _ _ _ _ => trivial) clean).1

theorem moves_on_when_full (plain : q.NonIsochronous) (small : q.sizes.sum < 2 ^ 64)
    (h : (machine (completeSequenceAwaitable q limit) q).run (initial (completeSequenceAwaitable q limit) q) es =
      some s) (clean : Clean s)
    (meets : (machine (completeSequenceAwaitable q limit) q).Meets Completes
      (initial (completeSequenceAwaitable q limit) q) es) :
    (machine (completeSequenceAwaitable q limit) q).Meets (MovesOnWhenFull q limit)
      (initial (completeSequenceAwaitable q limit) q) es := by
  rintro fs e u ⟨rest, rfl⟩ reached
  have inv := complete_run plain small reached
  obtain ⟨v, first, later⟩ := Machine.run_append_some.mp (List.append_assoc .. ▸ h)
  obtain rfl := Option.some.inj (first.symm.trans reached)
  have clean := clean_within plain small inv later clean
  have completes := meets fs e v (List.prefix_append _ _) reached
  cases e with
  | proceed r =>
    intro t entered fresh
    rcases exit : (completeSequenceAwaitable q limit).process v.pump t (v.tfers t) with ⟨p, next⟩
    rw [exit] at fresh
    cases completeSequenceAwaitable_exit exit with
    | next _ done => exact full_of_completes plain small inv clean completes entered done
    | failed | finished | again => cases fresh
  | _ => trivial

/-- A buffer left too early is never processed in full. -/
theorem completes_of_delivered (plain : q.NonIsochronous) (small : q.sizes.sum < 2 ^ 64)
    (h : (machine (completeSequenceAwaitable q limit) q).run (initial (completeSequenceAwaitable q limit) q) es =
      some s) (clean : Clean s)
    (delivered : ∀ j, j < s.pump.bufCurrent → deliveredTo s.log j = q.sizes.getD j 0) :
    (machine (completeSequenceAwaitable q limit) q).Meets Completes
      (initial (completeSequenceAwaitable q limit) q) es := by
  by_contra fails
  obtain ⟨fs, e, rest, u, v, rfl, reached, broken, step, rest⟩ := Machine.exists_of_not_meets h fails
  have later := Machine.run_cons.mpr ⟨v, step, rest⟩
  have inv := complete_run plain small reached
  cases e with
  | proceed r =>
    simp only [Completes, not_forall, not_or] at broken
    obtain ⟨t, entered, used_again, incomplete⟩ := broken
    obtain ⟨taken, less, _⟩ := (clean_run (I := fun w => Short q w (bufferOf u.tfers t)) (C := fun _ _ => True) plain
      small inv (fun inv _ clean _ _ step short => short_step plain small inv clean step short)
      (fun clean => short_of_incomplete inv.counted inv.handed (inv.holding clean) entered used_again incomplete)
      later (fun _ _ _ _ _ => trivial) clean).2
    exact absurd (delivered _ taken) less.ne
  | _ => exact broken trivial

/-- A complete operation that resumes without an error has processed every buffer in full
exactly when no transfer is given a further buffer it needs several completions for. -/
theorem complete_operation_processes_every_buffer_iff (q : Request) (limit : Nat) (es : List Event)
    (s : State CompleteState) (ec : ErrorCode) (n : Nat) (plain : q.NonIsochronous) (some_buffer : 0 < q.sizes.length)
    (some_transfer : 0 < q.transfers)
    (h : (machine (completeSequenceAwaitable q limit) q).run (initial (completeSequenceAwaitable q limit) q) es =
      some s) (resumed : s.resumed = some (ec, n)) (fine : ec.isError = false) :
    ProcessedEveryBuffer q limit es s n ↔
      q.sizes.sum < 2 ^ 64 ∧ (machine (completeSequenceAwaitable q limit) q).Meets Completes
        (initial (completeSequenceAwaitable q limit) q) es := by
  have unready : (completeSequenceAwaitable q limit).ready (completeSequenceAwaitable q limit).start = false :=
    decide_eq_false (Nat.not_le.mpr some_buffer)
  obtain ⟨fine, total, settled⟩ := resumed_fine h unready resumed fine
  have clean := settled.clean fine
  have exhausted : q.sizes.sum < 2 ^ 64 → s.pump.bufCurrent = q.sizes.length := fun small =>
    settled.exhausted (lt_min some_buffer some_transfer) ((complete_run plain small h).busy clean)
  have total : n = sizeT (∑ t ∈ Finset.range q.used, (s.pump.states t).total) :=
    total.trans (CompleteSequenceAwaitable.total_eq s.pump)
  constructor
  · rintro ⟨delivered, whole, _⟩
    have small : q.sizes.sum < 2 ^ 64 := by
      rw [← whole, total]
      exact Word.wrap_lt 64 _
    refine ⟨small, completes_of_delivered plain small h clean fun j bound => delivered j ?_⟩
    rwa [← exhausted small]
  · rintro ⟨small, meets⟩
    have holding := (complete_run plain small h).holding clean
    have filled : Filled q s := (clean_run plain small (complete_initial q limit)
      (fun inv inv' clean clean' completes step => filled_step plain small inv inv' clean clean' completes step)
      (fun _ j bound => absurd bound (Nat.not_lt_zero j)) h meets clean).2
    have delivered := filled.delivered settled (exhausted small)
    refine ⟨delivered, ?_, moves_on_when_full plain small h clean meets⟩
    have totals := holding.totals
    rw [(creditOf_free settled.free 0).1, Nat.add_zero, holding.moved,
      Finset.sum_congr rfl fun j bound => delivered j (Finset.mem_range.mp bound)] at totals
    rw [total, totals]
    exact (congrArg sizeT q.sum_sizes).trans (Word.wrap_of_lt small)

/-- Two buffers of four bytes for one bulk transfer. -/
def reusedBulk : Request := { twoBulk with transfers := 1 }

/-- One round of the transfer in which it moves `n` bytes. -/
def moving (n : Nat) : List Event := [.complete 0 ⟨.completed, n, []⟩, .callback 0, .proceed 0]

/-- The first buffer in two parts, the second at once. -/
def bothInFull : List Event := [.suspend, .submit 0, .leaveLoop] ++ moving 2 ++ moving 2 ++ moving 4 ++ [.resume]

/-- Both buffers at once. -/
def bothAtOnce : List Event := [.suspend, .submit 0, .leaveLoop] ++ moving 4 ++ moving 4 ++ [.resume]

/-- Both buffers in parts of two bytes. -/
def secondInPart : List Event := [.suspend, .submit 0, .leaveLoop] ++ moving 2 ++ moving 2 ++ moving 2 ++ [.resume]

theorem reusedBulk_nonIsochronous : reusedBulk.NonIsochronous := fun _ _ => by simp [reusedBulk, twoBulk]

theorem complete_operation_processes_every_buffer_iff_reused_bulk :
    ∃ s, (machine (completeSequenceAwaitable reusedBulk 4) reusedBulk).run
      (initial (completeSequenceAwaitable reusedBulk 4) reusedBulk) bothInFull = some s ∧
      ProcessedEveryBuffer reusedBulk 4 bothInFull s 8 :=
  ⟨_, rfl, (complete_operation_processes_every_buffer_iff reusedBulk 4 bothInFull _ {} 8 reusedBulk_nonIsochronous
    (by decide) (by decide) rfl rfl rfl).mpr ⟨by decide, by decide⟩⟩

/-- With the limit 2 the second buffer is given up after two of its four bytes. -/
theorem second_buffer_left_half_processed :
    ∃ s, (machine (completeSequenceAwaitable reusedBulk 2) reusedBulk).run
      (initial (completeSequenceAwaitable reusedBulk 2) reusedBulk) secondInPart = some s ∧
      s.resumed = some ({}, 6) ∧ deliveredTo s.log 1 = 2 ∧ ¬ ProcessedEveryBuffer reusedBulk 2 secondInPart s 6 := by
  refine ⟨_, rfl, rfl, rfl, fun processed => ?_⟩
  have total := processed.total
  simp [reusedBulk, twoBulk] at total

end CoUsb.Transfer

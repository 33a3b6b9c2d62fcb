import CoUsb.Lib.Dispenser
import CoUsb.Transfer.History
import CoUsb.Transfer.Ordinary

/-!
# Handing out the buffers

Both awaitables hand the buffers out in sequence order through one iterator. A transfer
keeps the buffer it holds until it is given the next one, so no two transfers share one.
-/

namespace CoUsb.Transfer

variable {σ : Type} {P : Pump σ} {q : Request} {s s' : State σ} {e : Event} {es : List Event} {t : Nat}
  {cur : σ → Nat} {aligned : σ → Nat → Nat → Prop}

/-- How an awaitable moves its iterator `cur` and assigns buffers; `aligned p t b` says that
it, too, has `b` as the buffer of transfer `t`. -/
structure Sequential (P : Pump σ) (q : Request) (cur : σ → Nat) (aligned : σ → Nat → Nat → Prop) : Prop where
  start : cur P.start = 0
  fill : ∀ p t tfer, cur (P.fill p t tfer).1 = cur p + 1 ∧ (P.fill p t tfer).2.buffer.buffer = cur p ∧
    aligned (P.fill p t tfer).1 t (cur p)
  fill_other : ∀ p t tfer u b, u ≠ t → aligned p u b → aligned (P.fill p t tfer).1 u b
  other : ∀ p t tfer u b, u ≠ t → aligned p u b → aligned (P.process p t tfer).1 u b
  resume : ∀ p t tfer p', P.process p t tfer = (p', .resume) →
    cur p = q.sizes.length ∧ cur p' = cur p ∧ ∀ b, aligned p t b → aligned p' t b
  fail : ∀ p t tfer p' ec, P.process p t tfer = (p', .fail ec) →
    cur p' = cur p ∧ ∀ b, aligned p t b → aligned p' t b
  fresh : ∀ p t tfer p' tfer', P.process p t tfer = (p', .submit true tfer') →
    cur p ≠ q.sizes.length ∧ cur p' = cur p + 1 ∧ tfer'.buffer.buffer = cur p ∧ aligned p' t (cur p)
  again : ∀ p t tfer p' tfer', P.process p t tfer = (p', .submit false tfer') →
    cur p' = cur p ∧ ∀ b, aligned p t b → tfer'.buffer.buffer = b ∧ aligned p' t b

/-- The buffer a transfer holds. -/
def bufferOf (tfers : Nat → LibusbTransfer) (t : Nat) : Nat := (tfers t).buffer.buffer

@[simp] theorem bufferOf_update_self (tfers : Nat → LibusbTransfer) (t : Nat) (tfer : LibusbTransfer) :
    bufferOf (Function.update tfers t tfer) t = tfer.buffer.buffer := by rw [bufferOf, Function.update_self]

theorem bufferOf_update_of_ne {t u : Nat} (other : u ≠ t) (tfers : Nat → LibusbTransfer) (tfer : LibusbTransfer) :
    bufferOf (Function.update tfers t tfer) u = bufferOf tfers u := by
  rw [bufferOf, Function.update_of_ne other, bufferOf]

theorem finish_window (tfers : Nat → LibusbTransfer) (t : Nat) (c : Completion) (u : Nat) :
    (Function.update tfers t ((tfers t).finish c) u).buffer = (tfers u).buffer ∧
      (Function.update tfers t ((tfers t).finish c) u).length = (tfers u).length := by
  by_cases same : u = t
  · subst u
    rw [Function.update_self]
    exact ⟨rfl, rfl⟩
  · rw [Function.update_of_ne same]
    exact ⟨rfl, rfl⟩

theorem bufferOf_finish (tfers : Nat → LibusbTransfer) (t : Nat) (c : Completion) (u : Nat) :
    bufferOf (Function.update tfers t ((tfers t).finish c)) u = bufferOf tfers u :=
  congrArg Pointer.buffer (finish_window tfers t c u).1

def Action.taken : Action → Option Nat
  | .take _ j => some j
  | _ => none

/-- The buffers handed out so far. -/
def takes (log : List Action) : List Nat := log.filterMap Action.taken

@[simp] theorem takes_append (log more : List Action) : takes (log ++ more) = takes log ++ takes more :=
  List.filterMap_append ..

@[simp] theorem takes_nil : takes [] = [] := rfl

@[simp] theorem takes_cons (a : Action) (log : List Action) : takes (a :: log) = a.taken.toList ++ takes log := by
  cases a <;> rfl

@[simp] theorem takes_resumeOnZero (s : State σ) : takes (resumeOnZero s).log = takes s.log := by
  rw [resumeOnZero_log, takes_append]
  split <;> simp [Action.taken]

/-- The iterator with the buffer each transfer used holds. -/
def dispenser (q : Request) (cur : σ → Nat) (s : State σ) : Dispenser Nat :=
  ⟨cur s.pump, fun t => if s.started = true ∧ t < q.used then some (s.tfers t).buffer.buffer else none⟩

structure Handed (q : Request) (cur : σ → Nat) (aligned : σ → Nat → Nat → Prop) (s : State σ) : Prop where
  start : s.started = false → cur s.pump = 0
  takes : takes s.log = List.range (cur s.pump)
  valid : Dispenser.Valid q.sizes.length (dispenser q cur s)
  aligned : s.started = true → ∀ t, t < q.used → aligned s.pump t (s.tfers t).buffer.buffer

theorem Handed.cur_le (handed : Handed q cur aligned s) : cur s.pump ≤ q.sizes.length := handed.valid.next_le

theorem Handed.exclusive (handed : Handed q cur aligned s) (started : s.started = true) {t u : Nat} (first : t < q.used)
    (second : u < q.used) (same : (s.tfers t).buffer.buffer = (s.tfers u).buffer.buffer) : t = u := by
  refine handed.valid.exclusive t u (s.tfers u).buffer.buffer ?_ ?_ <;> simp [dispenser, started, first, second, same]

theorem Handed.buffer_lt (handed : Handed q cur aligned s) (started : s.started = true) (used : t < q.used) :
    (s.tfers t).buffer.buffer < cur s.pump :=
  handed.valid.held_lt t _ (by simp [dispenser, started, used])

theorem Handed.of_frame (handed : Handed q cur aligned s) (started : s'.started = s.started)
    (pump : cur s'.pump = cur s.pump) (log : Transfer.takes s'.log = Transfer.takes s.log)
    (buffers : ∀ t, (s'.tfers t).buffer.buffer = (s.tfers t).buffer.buffer)
    (kept : s.started = true → ∀ t, t < q.used → aligned s'.pump t (s.tfers t).buffer.buffer) :
    Handed q cur aligned s' := by
  obtain ⟨start, takes, valid, _⟩ := handed
  have same : dispenser q cur s' = dispenser q cur s := by
    simp only [dispenser, pump, started, buffers]
  refine ⟨by rw [started, pump]; exact start, by rw [log, pump, takes], by rwa [same], fun h t used => ?_⟩
  rw [buffers]
  exact kept (started.symm.trans h) t used

theorem Handed.take {tfer : LibusbTransfer} (handed : Handed q cur aligned s) (now : s.started = true)
    (used : t < q.used) (left : cur s.pump ≠ q.sizes.length) (started : s'.started = s.started)
    (pump : cur s'.pump = cur s.pump + 1) (log : Transfer.takes s'.log = Transfer.takes s.log ++ [cur s.pump])
    (tfers : s'.tfers = Function.update s.tfers t tfer) (buffer : tfer.buffer.buffer = cur s.pump)
    (here : aligned s'.pump t (cur s.pump))
    (others : ∀ u b, u ≠ t → aligned s.pump u b → aligned s'.pump u b) : Handed q cur aligned s' := by
  obtain ⟨start, takes, valid, kept⟩ := handed
  have next : dispenser q cur s' =
      ⟨cur s.pump + 1, Function.update (dispenser q cur s).held t (some (cur s.pump))⟩ := by
    simp only [dispenser, pump, started, now, tfers, true_and, Dispenser.mk.injEq]
    funext u
    by_cases same : u = t
    · subst u; simp [used, buffer]
    · simp [Function.update_of_ne same]
  refine ⟨fun h => ?_, ?_, ?_, fun _ u bound => ?_⟩
  · rw [started, now] at h
    cases h
  · rw [log, takes, pump, List.range_succ]
  · rw [next]
    exact Dispenser.step_valid valid (.take _ t (lt_of_le_of_ne valid.next_le left))
  · rw [tfers]
    by_cases same : u = t
    · rw [same, Function.update_self, buffer]
      exact here
    · rw [Function.update_of_ne same]
      exact others u _ same (kept now u bound)

theorem fillLoop_assigns (sequential : Sequential P q cur aligned) (handed : Handed q cur aligned s)
    (at_start : s.suspend = .start) :
    cur (fillLoop P q.positions s).pump = q.used ∧ takes (fillLoop P q.positions s).log = List.range q.used ∧
      ∀ t, t < q.used → ((fillLoop P q.positions s).tfers t).buffer.buffer = t ∧
        aligned (fillLoop P q.positions s).pump t t := by
  have zero := handed.start (by simp [State.started, at_start])
  refine fillLoop_positions (I := fun a u => cur u.pump = a ∧ takes u.log = List.range a ∧
    ∀ t, t < a → (u.tfers t).buffer.buffer = t ∧ aligned u.pump t t) ?_ ?_
  · exact ⟨zero, by rw [handed.takes, zero], fun t h => absurd h (Nat.not_lt_zero t)⟩
  · rintro t u _ ⟨pump, log, assigned⟩
    obtain ⟨next, buffer, here⟩ := sequential.fill u.pump t (u.tfers t)
    rw [pump] at next buffer here
    refine ⟨next, ?_, fun v bound => ?_⟩
    · simp only [fillRound, takes_append, log, buffer, List.range_succ]
      rfl
    · simp only [fillRound]
      by_cases same : v = t
      · subst v
        rw [Function.update_self]
        exact ⟨buffer, here⟩
      · rw [Function.update_of_ne same]
        have before := assigned v (by omega)
        exact ⟨before.1, sequential.fill_other _ _ _ _ _ same before.2⟩

theorem handed_filled (sequential : Sequential P q cur aligned) (handed : Handed q cur aligned s)
    (at_start : s.suspend = .start) :
    Handed q cur aligned (s.fill P q) := by
  obtain ⟨pump, log, assigned⟩ := fillLoop_assigns sequential handed at_start
  refine ⟨by simp [State.started], by rw [log, pump], ?_, fun _ t used => ?_⟩
  · have first : dispenser q cur (s.fill P q) = .start q.used := by
      simp only [dispenser, Dispenser.start, pump, State.started, true_and, Dispenser.mk.injEq]
      funext t
      by_cases used : t < q.used
      · simp only [used, if_true, (assigned t used).1]
      · simp [used]
    rw [first]
    exact Dispenser.start_valid q.used_le_length
  · rw [(assigned t used).1]
    exact (assigned t used).2

theorem handed_resubmit {pump : σ} {fresh : Bool} {tfer : LibusbTransfer} (sequential : Sequential P q cur aligned)
    (handed : Handed q cur aligned s) (now : s.started = true) (used : t < q.used)
    (exit : P.process s.pump t (s.tfers t) = (pump, .submit fresh tfer)) (started : s'.started = s.started)
    (same : s'.pump = pump) (tfers : s'.tfers = Function.update s.tfers t tfer)
    (log : takes s'.log = takes s.log ++ if fresh then [tfer.buffer.buffer] else []) : Handed q cur aligned s' := by
  have others : ∀ u b, u ≠ t → aligned s.pump u b → aligned s'.pump u b := by
    intro u b different before
    have after := sequential.other s.pump t (s.tfers t) u b different before
    rwa [exit, ← same] at after
  subst same
  cases fresh with
  | true =>
    obtain ⟨left, next, buffer, here⟩ := sequential.fresh _ _ _ _ _ exit
    exact handed.take now used left started next (by simpa [buffer] using log) tfers buffer here others
  | false =>
    obtain ⟨next, own⟩ := sequential.again _ _ _ _ _ exit
    have before := handed.aligned now
    refine handed.of_frame started next (by simpa using log) (fun u => ?_) fun _ u bound => ?_
    · rw [tfers]
      by_cases different : u = t
      · rw [different, Function.update_self, (own _ (before t used)).1]
      · rw [Function.update_of_ne different]
    · by_cases different : u = t
      · exact different ▸ (own _ (different ▸ before u bound)).2
      · exact others u _ different (before u bound)

theorem handed_step (sequential : Sequential P q cur aligned) (counted : Counted q s) (handed : Handed q cur aligned s)
    (step : Step P q s e s') : Handed q cur aligned s' := by
  have running : ∀ u, s.callback = .entered u → s.started = true ∧ u < q.used := fun u entered => by
    have launched := (counted.entered entered).2
    exact ⟨counted.started_of_submitted launched, counted.lt_used launched⟩
  -- a callback changes the buffer of its own transfer only
  have kept : ∀ {u pump next}, P.process s.pump u (s.tfers u) = (pump, next) →
      (∀ b, aligned s.pump u b → aligned pump u b) →
      s.started = true → ∀ t, t < q.used → aligned pump t (s.tfers t).buffer.buffer := by
    intro u pump next exit own started t used
    have before := handed.aligned started t used
    by_cases same : t = u
    · exact same ▸ own _ (same ▸ before)
    · have after := sequential.other s.pump u (s.tfers u) t _ same before
      rwa [exit] at after
  cases step with
  | ready at_start | stopped at_start =>
    exact handed.of_frame (by simp [State.started, at_start]) rfl rfl (fun _ => rfl) handed.aligned
  | filled at_start => exact handed_filled sequential handed at_start
  | submitOk i at_loop | submitFail i r at_loop =>
    exact handed.of_frame (by simp [State.started, at_loop]) rfl (by simp [Action.taken]) (fun _ => rfl)
      handed.aligned
  | recordFailure i r at_loop | leaveLoop at_loop =>
    exact handed.of_frame (by simp [State.started, at_loop]) rfl rfl (fun _ => rfl) handed.aligned
  | complete u c =>
    exact handed.of_frame rfl rfl rfl (bufferOf_finish s.tfers u c) handed.aligned
  | drain u =>
    exact handed.of_frame (started_congr (by simp)) (by simp) (by simp [Action.taken]) (by simp)
      (by simpa using handed.aligned)
  | enter u =>
    exact handed.of_frame rfl rfl (by simp [Action.taken]) (fun _ => rfl) handed.aligned
  | cancel i => exact handed.of_frame rfl rfl (by simp [Action.taken]) (fun _ => rfl) handed.aligned
  | proceedResume u r pump entered exit =>
    obtain ⟨_, same, own⟩ := sequential.resume _ _ _ _ exit
    exact handed.of_frame (started_congr (by simp)) (by simpa using same) (by simp) (by simp)
      (by simpa using kept exit own)
  | proceedFail u r pump ec entered exit =>
    obtain ⟨same, own⟩ := sequential.fail _ _ _ _ _ exit
    exact handed.of_frame rfl same rfl (fun _ => rfl) (kept exit own)
  | resubmitOk u pump fresh tfer entered exit | resubmitFail u r pump fresh tfer entered failed exit =>
    refine handed_resubmit sequential handed (running u entered).1 (running u entered).2 exit rfl rfl rfl ?_
    cases fresh <;> simp [Action.taken]
  | storeFailure =>
    exact handed.of_frame (started_congr (by simp)) (by simp) (by simp) (by simp) (by simpa using handed.aligned)
  | requestStop | finishStop | resume => exact handed.of_frame rfl rfl rfl (fun _ => rfl) handed.aligned

theorem handed_initial (sequential : Sequential P q cur aligned) : Handed q cur aligned (initial P q) := by
  have empty : dispenser q cur (initial P q) = .start 0 := by
    simp [dispenser, initial, State.started, sequential.start, Dispenser.start]
  refine ⟨fun _ => sequential.start, by simp [initial, sequential.start, takes], ?_, by simp [initial, State.started]⟩
  rw [empty]
  exact Dispenser.start_valid (Nat.zero_le _)

/-! ### The last buffer -/

/-- Either every buffer was handed out or every transfer is still at work. -/
def Busy (q : Request) (cur : σ → Nat) (s : State σ) : Prop :=
  s.started = true → cur s.pump = q.sizes.length ∨
    ∀ t, t < q.used → s.isOpen t ∨ s.callback.transfer = some t

theorem Busy.of_frame (busy : Busy q cur s) (started : s'.started = s.started) (pump : s'.pump = s.pump)
    (callback : s'.callback.transfer = s.callback.transfer) (isOpen : ∀ t, s'.isOpen t ↔ s.isOpen t) :
    Busy q cur s' := by
  simpa only [Busy, started, pump, callback, isOpen] using busy

theorem busy_filled (counted : Counted q s) (at_start : s.suspend = .start) : Busy q cur (s.fill P q) := by
  have unstarted : s.started = false := by simp [State.started, at_start]
  refine fun _ => Or.inr fun t _ => Or.inl (Or.inr ?_)
  exact (submitted_fillLoop ..).trans (counted.unlaunched unstarted t)

/-- A transfer submitted again is at work, and where the buffers were all handed out they still are. -/
theorem busy_resubmit {pump : σ} {fresh : Bool} {tfer : LibusbTransfer} (sequential : Sequential P q cur aligned)
    (busy : Busy q cur s) (entered : s.callback = .entered t)
    (exit : P.process s.pump t (s.tfers t) = (pump, .submit fresh tfer)) (started : s'.started = s.started)
    (same : s'.pump = pump) (flight : s'.flight = Function.update s.flight t (.inFlight false))
    (log : ∀ u, u ≠ t → submitted s'.log u = submitted s.log u) : Busy q cur s' := by
  intro now
  subst same
  rcases busy (started.symm.trans now) with done | work
  · left
    cases fresh with
    | true => exact absurd done (sequential.fresh _ _ _ _ _ exit).1
    | false => exact (sequential.again _ _ _ _ _ exit).1.trans done
  · refine Or.inr fun u used => Or.inl ?_
    by_cases own : u = t
    · left
      rw [own, flight, Function.update_self]
      simp
    · have before := (work u used).resolve_right (by
        rw [entered]
        exact fun h => own (Option.some.inj h).symm)
      rwa [State.isOpen, flight, Function.update_of_ne own, log u own]

theorem busy_step (sequential : Sequential P q cur aligned) (counted : Counted q s) (ordinary : Ordinary q s)
    (busy : Busy q cur s) (step : Step P q s e s') (clean : Clean s') : Busy q cur s' := by
  obtain ⟨fine, unfailing, _⟩ := clean
  cases step with
  | ready at_start | stopped at_start => intro h; cases h
  | filled at_start => exact busy_filled counted at_start
  | submitOk i at_loop =>
    intro _
    apply (busy (by simp [State.started, at_loop])).imp_right
    intro work t used
    apply (work t used).imp_left
    intro isOpen
    by_cases same : t = i
    · left
      simp [same]
    · simpa [State.isOpen, Function.update_of_ne same, Action.launches, Ne.symm same] using isOpen
  | submitFail i r at_loop _ failed =>
    exact busy.of_frame (by simp [State.started, at_loop]) rfl rfl (by simp [State.isOpen, Action.launches, failed])
  | recordFailure i r at_loop | leaveLoop at_loop =>
    exact busy.of_frame (by simp [State.started, at_loop]) rfl rfl fun _ => Iff.rfl
  | complete u c cancelled flying =>
    refine busy.of_frame rfl rfl rfl fun t => ?_
    simp only [State.isOpen, ne_eq,
      update_idle_iff u t (by simp [flying] : Flight.completed = .idle ↔ s.flight u = .idle)]
  | drain _ _ _ failed => exact absurd fine (by simp [failed])
  | enter u free =>
    intro now
    apply (busy now).imp_right
    intro work t used
    by_cases same : t = u
    · exact Or.inr (by rw [same]; rfl)
    · have isOpen := (work t used).resolve_right (by simp [free, Callback.transfer])
      exact Or.inl (by simpa [State.isOpen, Function.update_of_ne same, Action.launches] using isOpen)
  | proceedResume u r pump entered exit =>
    obtain ⟨done, same, _⟩ := sequential.resume _ _ _ _ exit
    exact fun _ => Or.inl (by rw [resumeOnZero_pump]; exact same.trans done)
  | proceedFail u r pump ec => exact absurd rfl (unfailing u ec)
  | resubmitOk u pump fresh tfer entered exit =>
    refine busy_resubmit sequential busy entered exit rfl rfl rfl fun t other => ?_
    simp [Action.launches, Ne.symm other]
  | resubmitFail u r => exact absurd rfl (unfailing u (makeUsbErrorCode r))
  | storeFailure u ec failing => exact absurd fine (by simp [ordinary.error u ec failing])
  | cancel i =>
    refine busy.of_frame rfl rfl rfl fun t => ?_
    have same : (s.flight i).cancel = .idle ↔ s.flight i = .idle := by cases s.flight i <;> simp [Flight.cancel]
    simp only [State.isOpen, ne_eq, update_idle_iff i t same, submitted_append, submitted_singleton, Action.launches,
      Bool.or_false]
  | requestStop | finishStop | resume => exact busy.of_frame rfl rfl rfl fun _ => Iff.rfl

/-! ### The buffers submitted -/

/-- A transfer that was submitted still holds a buffer that was. -/
def Requested (s : State σ) : Prop :=
  ∀ t, submitted s.log t = true → 0 < submissionsOf s.log (bufferOf s.tfers t)

theorem Requested.of_frame (requested : Requested s) (step : Step P q s e s')
    (log : ∀ t, submitted s'.log t = true → submitted s.log t = true)
    (buffers : ∀ t, bufferOf s'.tfers t = bufferOf s.tfers t) : Requested s' := by
  intro t launched
  rw [submissionsOf_step step, buffers]
  exact (requested t (log t launched)).trans_le (Nat.le_add_right _ _)

theorem requested_step (counted : Counted q s) (requested : Requested s) (step : Step P q s e s') :
    Requested s' := by
  cases id step with
  | filled at_start =>
    have unstarted : s.started = false := by simp [State.started, at_start]
    intro t launched
    rw [submitted_fillLoop, counted.unlaunched unstarted] at launched
    cases launched
  | submitOk i =>
    intro t launched
    rw [submissionsOf_step step]
    by_cases same : t = i
    · subst t
      simp_all [made, Action.buffer, bufferOf]
    · have earlier : submitted s.log t = true := by simpa [Action.launches, Ne.symm same] using launched
      exact (requested t earlier).trans_le (Nat.le_add_right _ _)
  | submitFail i r _ _ failed =>
    exact requested.of_frame step (fun t => by simp [Action.launches, failed]) fun _ => rfl
  | complete u c =>
    exact requested.of_frame step (fun _ h => h) (bufferOf_finish s.tfers u c)
  | resubmitOk u pump fresh tfer entered exit | resubmitFail u r pump fresh tfer entered failed exit =>
    have launched := (counted.entered entered).2
    intro t h
    rw [submissionsOf_step step]
    by_cases same : t = u
    · subst t
      simp [made, entered, exit, Action.buffer]
    · rw [bufferOf_update_of_ne same]
      exact (requested t ((submitted_again launched fresh tfer _ t).symm.trans h)).trans_le (Nat.le_add_right _ _)
  | drain | proceedResume | storeFailure =>
    exact requested.of_frame step (by simp [Action.launches]) (by simp [bufferOf])
  | _ => exact requested.of_frame step (by simp [Action.launches]) fun _ => rfl

theorem requested_run (h : (machine P q).run (initial P q) es = some s) : Requested s := by
  have kept : Counted q s ∧ Requested s := by
    refine Machine.run_invariant (I := fun s => Counted q s ∧ Requested s) ?_
      ⟨counted_initial P q, by simp [Requested, initial]⟩ h
    rintro s e s' ⟨counted, requested⟩ step
    exact ⟨counted_step counted (step_cases step), requested_step counted requested (step_cases step)⟩
  exact kept.2

/-! ### The two awaitables -/

theorem sequenceAwaitable_sequential (q : Request) :
    Sequential (sequenceAwaitable q) q SequenceState.bufCurrent fun _ _ _ => True := by
  refine ⟨rfl, fun _ _ _ => ⟨rfl, rfl, trivial⟩, fun _ _ _ _ _ _ h => h, fun _ _ _ _ _ _ h => h,
    fun p t tfer p' exit => ?_, fun p t tfer p' ec exit => ?_, fun p t tfer p' tfer' exit => ?_,
    fun p t tfer p' tfer' exit => ?_⟩
  · cases sequenceAwaitable_exit exit with
    | finished _ last => exact ⟨last, rfl, fun _ h => h⟩
  · cases sequenceAwaitable_exit exit with
    | failed => exact ⟨rfl, fun _ h => h⟩
  · cases sequenceAwaitable_exit exit with
    | next _ left => exact ⟨left, rfl, rfl, trivial⟩
  · cases sequenceAwaitable_exit exit

theorem completeSequenceAwaitable_sequential (q : Request) (limit : Nat) :
    Sequential (completeSequenceAwaitable q limit) q CompleteState.bufCurrent
      fun p t b => (p.states t).ptr.buffer = b := by
  refine ⟨rfl, fun p t tfer => ⟨rfl, rfl, ?_⟩, fun p t tfer u b other before => ?_, fun p t tfer u b other before => ?_,
    fun p t tfer p' exit => ?_, fun p t tfer p' ec exit => ?_, fun p t tfer p' tfer' exit => ?_,
    fun p t tfer p' tfer' exit => ?_⟩
  · simp [CompleteSequenceAwaitable.fill, Request.buffer]
  · simpa [CompleteSequenceAwaitable.fill, Function.update_of_ne other] using before
  · rcases exit : (completeSequenceAwaitable q limit).process p t tfer with ⟨p', next⟩
    cases completeSequenceAwaitable_exit exit <;> simpa [Function.update_of_ne other] using before
  · cases completeSequenceAwaitable_exit exit with
    | finished _ _ last => exact ⟨last, rfl, fun b h => by simpa [CompleteSequenceAwaitable.counted] using h⟩
  · cases completeSequenceAwaitable_exit exit with
    | failed => exact ⟨rfl, fun b h => by simpa [CompleteSequenceAwaitable.counted] using h⟩
  · cases completeSequenceAwaitable_exit exit with
    | next _ _ left => exact ⟨left, rfl, rfl, by simp [Request.buffer]⟩
  · cases completeSequenceAwaitable_exit exit with
    | again => exact ⟨rfl, fun b h => ⟨by simpa using h, by simpa using h⟩⟩

end CoUsb.Transfer

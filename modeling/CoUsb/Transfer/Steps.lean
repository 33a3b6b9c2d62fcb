import CoUsb.Transfer.Operation

/-!
# What one step of an operation can do

`Step` lists the outcomes of `step`, one constructor for each exit of the code; every
invariant of the operation is proved by cases on it.
-/

namespace CoUsb.Transfer

variable {σ : Type} {P : Pump σ} {q : Request} {s s' : State σ} {e : Event} {t t' : Nat}

namespace Request

@[simp] theorem view_begin (q : Request) : q.view.begin = 0 := rfl

@[simp] theorem view_end (q : Request) : q.view.end = 0 := rfl

/-- `end()` is `begin()`, so the loops run over exactly the transfers used. -/
@[simp] theorem last_eq (q : Request) : q.last = q.used := Nat.zero_add _

theorem used_eq (q : Request) : q.used = min q.sizes.length q.transfers := rfl

theorem used_lt (q : Request) : q.used < 2 ^ 64 := (Nat.min_le_left _ _).trans_lt q.length_lt

theorem used_le_length (q : Request) : q.used ≤ q.sizes.length := Nat.min_le_left _ _

@[simp] theorem positions_eq (q : Request) : q.positions = List.range' 0 q.used := by
  simp [positions]

theorem size_lt (q : Request) (j : Nat) : q.sizes.getD j 0 < 2 ^ 64 := by
  by_cases bound : j < q.sizes.length
  · exact q.sizes_lt _ (by simp [bound])
  · simp [Nat.not_lt.mp bound]

theorem sum_sizes (q : Request) : ((List.range q.sizes.length).map fun j => q.sizes.getD j 0).sum = q.sizes.sum := by
  congr 1
  apply List.ext_getElem (by simp)
  intro j _ bound
  simp [bound]

end Request

/-! ### The fields a helper leaves alone -/

@[simp] theorem resumeOnZero_suspend (s : State σ) : (resumeOnZero s).suspend = s.suspend := by
  unfold resumeOnZero; split <;> rfl

@[simp] theorem resumeOnZero_callback (s : State σ) : (resumeOnZero s).callback = s.callback := by
  unfold resumeOnZero; split <;> rfl

@[simp] theorem resumeOnZero_stop (s : State σ) : (resumeOnZero s).stop = s.stop := by
  unfold resumeOnZero; split <;> rfl

@[simp] theorem resumeOnZero_ec (s : State σ) : (resumeOnZero s).ec = s.ec := by
  unfold resumeOnZero; split <;> rfl

@[simp] theorem resumeOnZero_inFlight (s : State σ) : (resumeOnZero s).inFlight = s.inFlight := by
  unfold resumeOnZero; split <;> rfl

@[simp] theorem resumeOnZero_pump (s : State σ) : (resumeOnZero s).pump = s.pump := by
  unfold resumeOnZero; split <;> rfl

@[simp] theorem resumeOnZero_tfers (s : State σ) : (resumeOnZero s).tfers = s.tfers := by
  unfold resumeOnZero; split <;> rfl

@[simp] theorem resumeOnZero_flight (s : State σ) : (resumeOnZero s).flight = s.flight := by
  unfold resumeOnZero; split <;> rfl

@[simp] theorem resumeOnZero_resumed (s : State σ) : (resumeOnZero s).resumed = s.resumed := by
  unfold resumeOnZero; split <;> rfl

theorem resumeOnZero_posted (s : State σ) :
    (resumeOnZero s).posted = s.posted + if s.inFlight = 0 then 1 else 0 := by
  unfold resumeOnZero; split <;> rfl

theorem resumeOnZero_log (s : State σ) :
    (resumeOnZero s).log = s.log ++ if s.inFlight = 0 then [.post] else [] := by
  unfold resumeOnZero; split <;> simp

theorem fillLoop_frame (P : Pump σ) (ts : List Nat) (s : State σ) :
    ∃ pump tfers takes, (∀ a ∈ takes, ∃ t j, a = Action.take t j) ∧
      fillLoop P ts s = { s with pump, tfers, log := s.log ++ takes } := by
  induction ts generalizing s with
  | nil => exact ⟨s.pump, s.tfers, [], by simp, by simp [fillLoop]⟩
  | cons t ts ih =>
    obtain ⟨pump, tfers, takes, shape, same⟩ := ih
      { s with
        pump := (P.fill s.pump t (s.tfers t)).1
        tfers := Function.update s.tfers t (P.fill s.pump t (s.tfers t)).2
        log := s.log ++ [.take t (P.fill s.pump t (s.tfers t)).2.buffer.buffer] }
    refine ⟨pump, tfers, .take t (P.fill s.pump t (s.tfers t)).2.buffer.buffer :: takes, ?_, ?_⟩
    · intro a member
      rcases List.mem_cons.mp member with rfl | later
      · exact ⟨_, _, rfl⟩
      · exact shape a later
    · simp only [fillLoop, same, List.append_assoc, List.singleton_append]

@[simp] theorem fillLoop_callback (P : Pump σ) (ts : List Nat) (s : State σ) : (fillLoop P ts s).callback = s.callback := by
  obtain ⟨_, _, _, _, same⟩ := fillLoop_frame P ts s
  rw [same]

@[simp] theorem fillLoop_stop (P : Pump σ) (ts : List Nat) (s : State σ) : (fillLoop P ts s).stop = s.stop := by
  obtain ⟨_, _, _, _, same⟩ := fillLoop_frame P ts s
  rw [same]

@[simp] theorem fillLoop_ec (P : Pump σ) (ts : List Nat) (s : State σ) : (fillLoop P ts s).ec = s.ec := by
  obtain ⟨_, _, _, _, same⟩ := fillLoop_frame P ts s
  rw [same]

@[simp] theorem fillLoop_flight (P : Pump σ) (ts : List Nat) (s : State σ) : (fillLoop P ts s).flight = s.flight := by
  obtain ⟨_, _, _, _, same⟩ := fillLoop_frame P ts s
  rw [same]

@[simp] theorem fillLoop_posted (P : Pump σ) (ts : List Nat) (s : State σ) : (fillLoop P ts s).posted = s.posted := by
  obtain ⟨_, _, _, _, same⟩ := fillLoop_frame P ts s
  rw [same]

@[simp] theorem fillLoop_resumed (P : Pump σ) (ts : List Nat) (s : State σ) : (fillLoop P ts s).resumed = s.resumed := by
  obtain ⟨_, _, _, _, same⟩ := fillLoop_frame P ts s
  rw [same]

/-! ### The outcomes of a step -/

namespace State

/-- The first loop has filled the transfers. -/
abbrev fill (s : State σ) (P : Pump σ) (q : Request) : State σ :=
  { fillLoop P q.positions s with suspend := .submitting 0, inFlight := q.used }

/-- Transfer `i` was submitted by the second loop. -/
abbrev launch (s : State σ) (i : Nat) : State σ :=
  { s with
    log := s.log ++ [.submit .loop i (s.tfers i) 0]
    flight := Function.update s.flight i (.inFlight false)
    suspend := .submitting (i + 1) }

/-- `transfer_callback` runs for transfer `t`. -/
abbrev enter (s : State σ) (t : Nat) : State σ :=
  { s with
    inFlight := Word.sub 64 s.inFlight 1
    flight := Function.update s.flight t .idle
    log := s.log ++ [.callback t (s.tfers t) s.ec]
    callback := .entered t }

/-- `transfer_callback` has submitted transfer `t` again. -/
abbrev resubmit (s : State σ) (t : Nat) (pump : σ) (fresh : Bool) (tfer : LibusbTransfer) : State σ :=
  { s with
    pump
    tfers := Function.update s.tfers t tfer
    log := s.log ++ (if fresh then [.take t tfer.buffer.buffer] else []) ++ [.submit .callback t tfer 0]
    flight := Function.update s.flight t (.inFlight false)
    inFlight := sizeT (s.inFlight + 1)
    callback := .idle }

end State

inductive Step (P : Pump σ) (q : Request) : State σ → Event → State σ → Prop where
  | ready {s : State σ} (at_start : s.suspend = .start) (ready : P.ready s.pump = true) :
      Step P q s .suspend
        { s with suspend := .notSuspended, resumed := some (s.ec, P.total s.pump) }
  | stopped {s : State σ} (at_start : s.suspend = .start) (unready : P.ready s.pump = false)
      (stopped : s.stop ≠ .idle) :
      Step P q s .suspend
        { s with
          suspend := .returnedHandle
          ec := makeTransferStatus TransferStatus.cancelled.code
          resumed := some (makeTransferStatus TransferStatus.cancelled.code, P.total s.pump) }
  | filled {s : State σ} (at_start : s.suspend = .start) (unready : P.ready s.pump = false) (running : s.stop = .idle) :
      Step P q s .suspend
        { fillLoop P q.positions s with suspend := .submitting 0, inFlight := q.used }
  | submitOk {s : State σ} (i : Nat) (at_loop : s.suspend = .submitting i) (more : i ≠ q.used) :
      Step P q s (.submit 0)
        { s with
          log := s.log ++ [.submit .loop i (s.tfers i) 0]
          flight := Function.update s.flight i (.inFlight false)
          suspend := .submitting (i + 1) }
  | submitFail {s : State σ} (i : Nat) (r : Int) (at_loop : s.suspend = .submitting i) (more : i ≠ q.used)
      (failed : r ≠ 0) :
      Step P q s (.submit r)
        { s with log := s.log ++ [.submit .loop i (s.tfers i) r], suspend := .failed i r }
  | recordFailure {s : State σ} (i : Nat) (r : Int) (failed : s.suspend = .failed i r) :
      Step P q s .recordFailure { s with ec := makeTransferStatus r, suspend := .returnedNoop }
  | leaveLoop {s : State σ} (at_end : s.suspend = .submitting q.used) :
      Step P q s .leaveLoop { s with suspend := .returnedNoop }
  | complete {s : State σ} (t : Nat) (c : Completion) (cancelled : Bool) (flying : s.flight t = .inFlight cancelled)
      (fits : c.fits (s.tfers t) = true) :
      Step P q s (.complete t c)
        { s with
          tfers := Function.update s.tfers t ((s.tfers t).finish c)
          flight := Function.update s.flight t .completed }
  | drain {s : State σ} (t : Nat) (free : s.callback = .idle) (completed : s.flight t = .completed)
      (failed : s.ec.isError = true) :
      Step P q s (.callback t)
        (resumeOnZero
          { s with
            inFlight := Word.sub 64 s.inFlight 1
            flight := Function.update s.flight t .idle
            log := s.log ++ [.callback t (s.tfers t) s.ec] })
  | enter {s : State σ} (t : Nat) (free : s.callback = .idle) (completed : s.flight t = .completed)
      (fine : s.ec.isError = false) :
      Step P q s (.callback t)
        { s with
          inFlight := Word.sub 64 s.inFlight 1
          flight := Function.update s.flight t .idle
          log := s.log ++ [.callback t (s.tfers t) s.ec]
          callback := .entered t }
  | proceedResume {s : State σ} (t : Nat) (r : Int) (pump : σ) (entered : s.callback = .entered t)
      (exit : P.process s.pump t (s.tfers t) = (pump, .resume)) :
      Step P q s (.proceed r) (resumeOnZero { s with pump, callback := .idle })
  | proceedFail {s : State σ} (t : Nat) (r : Int) (pump : σ) (ec : ErrorCode) (entered : s.callback = .entered t)
      (exit : P.process s.pump t (s.tfers t) = (pump, .fail ec)) :
      Step P q s (.proceed r) { s with pump, callback := .failing t ec }
  | resubmitOk {s : State σ} (t : Nat) (pump : σ) (fresh : Bool) (tfer : LibusbTransfer)
      (entered : s.callback = .entered t)
      (exit : P.process s.pump t (s.tfers t) = (pump, .submit fresh tfer)) :
      Step P q s (.proceed 0)
        { s with
          pump
          tfers := Function.update s.tfers t tfer
          log := s.log ++ (if fresh then [.take t tfer.buffer.buffer] else []) ++ [.submit .callback t tfer 0]
          flight := Function.update s.flight t (.inFlight false)
          inFlight := sizeT (s.inFlight + 1)
          callback := .idle }
  | resubmitFail {s : State σ} (t : Nat) (r : Int) (pump : σ) (fresh : Bool) (tfer : LibusbTransfer)
      (entered : s.callback = .entered t) (failed : r ≠ 0)
      (exit : P.process s.pump t (s.tfers t) = (pump, .submit fresh tfer)) :
      Step P q s (.proceed r)
        { s with
          pump
          tfers := Function.update s.tfers t tfer
          log := s.log ++ (if fresh then [.take t tfer.buffer.buffer] else []) ++ [.submit .callback t tfer r]
          callback := .failing t (makeUsbErrorCode r) }
  | storeFailure {s : State σ} (t : Nat) (ec : ErrorCode) (failing : s.callback = .failing t ec) :
      Step P q s .storeFailure (resumeOnZero { s with ec, callback := .idle })
  | requestStop {s : State σ} (quiet : s.stop = .idle) : Step P q s .requestStop { s with stop := .cancelling 0 }
  | cancel {s : State σ} (i : Nat) (cancelling : s.stop = .cancelling i) (more : i ≠ q.used) :
      Step P q s .cancel
        { s with
          flight := Function.update s.flight i (s.flight i).cancel
          stop := .cancelling (i + 1)
          log := s.log ++ [.cancel i] }
  | finishStop {s : State σ} (at_end : s.stop = .cancelling q.used) :
      Step P q s .finishStop { s with stop := .finished }
  | resume {s : State σ} (posted : 0 < s.posted) (first : s.resumed = none) :
      Step P q s .resume { s with resumed := some (s.ec, P.total s.pump) }

theorem awaitSuspend_step (at_start : s.suspend = .start) : Step P q s .suspend (awaitSuspend P q s) := by
  unfold awaitSuspend
  split
  case isTrue ready => exact .ready at_start ready
  case isFalse unready =>
    have unready : P.ready s.pump = false := by simpa using unready
    split
    case isTrue stopped => exact .stopped at_start unready stopped
    case isFalse running => exact .filled at_start unready (by simpa using running)

theorem submitNext_step {i : Nat} {r : Int} (at_loop : s.suspend = .submitting i) (more : i ≠ q.used) :
    Step P q s (.submit r) (submitNext s i r) := by
  unfold submitNext
  dsimp only
  split
  case isTrue ok => subst ok; exact .submitOk i at_loop more
  case isFalse failed => exact .submitFail i r at_loop more failed

theorem enterCallback_step (free : s.callback = .idle) (completed : s.flight t = .completed) :
    Step P q s (.callback t) (enterCallback s t) := by
  unfold enterCallback
  dsimp only
  split
  case isTrue failed => exact .drain t free completed failed
  case isFalse fine => exact .enter t free completed (by simpa using fine)

theorem proceedCallback_step {r : Int} (entered : s.callback = .entered t) :
    Step P q s (.proceed r) (proceedCallback P s t r) := by
  unfold proceedCallback
  split
  case h_1 pump exit => exact .proceedResume t r pump entered exit
  case h_2 pump ec exit => exact .proceedFail t r pump ec entered exit
  case h_3 pump fresh tfer exit =>
    dsimp only
    split
    case isTrue ok => subst ok; exact .resubmitOk t pump fresh tfer entered exit
    case isFalse failed => exact .resubmitFail t r pump fresh tfer entered failed exit

theorem step_cases (h : (machine P q).step s e = some s') : Step P q s e s' := by
  change step P q s e = some s' at h
  cases e with
  | suspend =>
    simp only [step, Option.ite_none_right_eq_some, Option.some.injEq] at h
    exact h.2 ▸ awaitSuspend_step h.1
  | submit r =>
    simp only [step] at h
    split at h
    case h_1 i at_loop =>
      simp only [Request.last_eq, Option.ite_none_right_eq_some, Option.some.injEq] at h
      exact h.2 ▸ submitNext_step at_loop h.1
    case h_2 => cases h
  | recordFailure =>
    simp only [step] at h
    split at h
    case h_1 i r failed => exact Option.some.inj h ▸ .recordFailure i r failed
    case h_2 => cases h
  | leaveLoop =>
    simp only [step, Request.last_eq, Option.ite_none_right_eq_some, Option.some.injEq] at h
    exact h.2 ▸ .leaveLoop h.1
  | complete t c =>
    simp only [step] at h
    split at h
    case h_1 cancelled flying =>
      simp only [Option.ite_none_right_eq_some, Option.some.injEq] at h
      exact h.2 ▸ .complete t c cancelled flying h.1
    case h_2 => cases h
  | callback t =>
    simp only [step, Option.ite_none_right_eq_some, Option.some.injEq] at h
    exact h.2 ▸ enterCallback_step h.1.1 h.1.2
  | proceed r =>
    simp only [step] at h
    split at h
    case h_1 t entered => exact Option.some.inj h ▸ proceedCallback_step entered
    case h_2 => cases h
  | storeFailure =>
    simp only [step] at h
    split at h
    case h_1 t ec failing => exact Option.some.inj h ▸ .storeFailure t ec failing
    case h_2 => cases h
  | requestStop =>
    simp only [step, Request.view_begin, Option.ite_none_right_eq_some, Option.some.injEq] at h
    exact h.2 ▸ .requestStop h.1
  | cancel =>
    simp only [step] at h
    split at h
    case h_1 i cancelling =>
      simp only [Request.view_begin, Nat.zero_add, Option.ite_none_right_eq_some, Option.some.injEq] at h
      exact h.2 ▸ .cancel i cancelling h.1
    case h_2 => cases h
  | finishStop =>
    simp only [step, Request.view_begin, Nat.zero_add, Option.ite_none_right_eq_some, Option.some.injEq] at h
    exact h.2 ▸ .finishStop h.1
  | resume =>
    simp only [step, Option.ite_none_right_eq_some, Option.some.injEq] at h
    exact h.2 ▸ .resume h.1.1 h.1.2

end CoUsb.Transfer

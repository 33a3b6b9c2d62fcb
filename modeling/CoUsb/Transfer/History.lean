import CoUsb.Lib.Log
import CoUsb.Transfer.Steps

/-!
# What a step adds to the log

The callbacks and the submissions of a run, read off its log.
-/

namespace CoUsb.Transfer

variable {σ : Type} {P : Pump σ} {q : Request} {s s' : State σ} {e : Event} {es : List Event}

def Action.isCallback : Action → Bool
  | .callback _ _ _ => true
  | _ => false

/-- The invocations of `transfer_callback`. -/
def callbacks (log : List Action) : List Action := log.filter Action.isCallback

/-- The calls of `libusb_submit_transfer`. -/
def Action.submits : Action → Bool
  | .submit _ _ _ _ => true
  | _ => false

def submissions (log : List Action) : List Action := log.filter Action.submits

/-- The buffer a callback or a submission is about. -/
def Action.buffer : Action → Nat
  | .callback _ tfer _ | .submit _ _ tfer _ => tfer.buffer.buffer
  | .take _ _ | .cancel _ | .post => 0

/-- The submissions of buffer `j`. -/
def submissionsOf (log : List Action) (j : Nat) : Nat := ((submissions log).map Action.buffer).count j

@[simp] theorem callbacks_append (log more : List Action) : callbacks (log ++ more) = callbacks log ++ callbacks more :=
  List.filter_append ..

@[simp] theorem submissions_append (log more : List Action) :
    submissions (log ++ more) = submissions log ++ submissions more :=
  List.filter_append ..

@[simp] theorem callbacks_nil : callbacks [] = [] := rfl

@[simp] theorem submissions_nil : submissions [] = [] := rfl

@[simp] theorem callbacks_cons (a : Action) (log : List Action) :
    callbacks (a :: log) = (bif a.isCallback then [a] else []) ++ callbacks log := by
  cases a <;> rfl

@[simp] theorem submissions_cons (a : Action) (log : List Action) :
    submissions (a :: log) = (bif a.submits then [a] else []) ++ submissions log := by
  cases a <;> rfl

@[simp] theorem callbacks_singleton (a : Action) : callbacks [a] = bif a.isCallback then [a] else [] :=
  List.filter_singleton

@[simp] theorem submissions_singleton (a : Action) : submissions [a] = bif a.submits then [a] else [] :=
  List.filter_singleton

@[simp] theorem callbacks_resumeOnZero (s : State σ) : callbacks (resumeOnZero s).log = callbacks s.log := by
  rw [resumeOnZero_log, callbacks_append]
  split <;> simp [Action.isCallback, callbacks]

@[simp] theorem submissions_resumeOnZero (s : State σ) : submissions (resumeOnZero s).log = submissions s.log := by
  rw [resumeOnZero_log, submissions_append]
  split <;> simp [submissions, Action.submits]

@[simp] theorem callbacks_taken (fresh : Bool) (t j : Nat) : callbacks (if fresh then [.take t j] else []) = [] := by
  cases fresh <;> rfl

@[simp] theorem submissions_taken (fresh : Bool) (t j : Nat) :
    submissions (if fresh then [.take t j] else []) = [] := by
  cases fresh <;> rfl

/-- The callback a step invokes. -/
def called (s : State σ) : Event → List Action
  | .callback t => [.callback t (s.tfers t) s.ec]
  | _ => []

/-- The submission a step makes. -/
def made (P : Pump σ) (s : State σ) : Event → List Action
  | .submit r => match s.suspend with
    | .submitting i => [.submit .loop i (s.tfers i) r]
    | _ => []
  | .proceed r => match s.callback with
    | .entered t => match (P.process s.pump t (s.tfers t)).2 with
      | .submit _ tfer => [.submit .callback t tfer r]
      | _ => []
    | _ => []
  | _ => []

theorem callbacks_fillLoop (P : Pump σ) (ts : List Nat) (s : State σ) :
    callbacks (fillLoop P ts s).log = callbacks s.log ∧ submissions (fillLoop P ts s).log = submissions s.log := by
  obtain ⟨pump, tfers, takes, shape, same⟩ := fillLoop_frame P ts s
  have silent : callbacks takes = [] ∧ submissions takes = [] := by
    constructor <;> refine List.filter_eq_nil_iff.mpr fun a member => ?_
    all_goals
      obtain ⟨_, _, rfl⟩ := shape a member
      simp [Action.isCallback, Action.submits]
  rw [same]
  simp [silent]

theorem callbacks_step (step : Step P q s e s') : callbacks s'.log = callbacks s.log ++ called s e := by
  cases step with
  | filled => simpa [called] using (callbacks_fillLoop P q.positions s).1
  | _ => simp [Action.isCallback, called]

theorem submissions_step (step : Step P q s e s') : submissions s'.log = submissions s.log ++ made P s e := by
  cases step with
  | filled => simpa [made] using (callbacks_fillLoop P q.positions s).2
  | _ => simp_all [Action.submits, made]

theorem submissionsOf_append (log more : List Action) (j : Nat) :
    submissionsOf (log ++ more) j = submissionsOf log j + submissionsOf more j := by
  simp [submissionsOf, List.count_append]

theorem submissionsOf_step (step : Step P q s e s') (j : Nat) :
    submissionsOf s'.log j = submissionsOf s.log j + ((made P s e).map Action.buffer).count j := by
  rw [submissionsOf, submissions_step step, List.map_append, List.count_append, submissionsOf]

theorem submissionsOf_run (h : (machine P q).run s es = some s') (j : Nat) :
    submissionsOf s.log j ≤ submissionsOf s'.log j := by
  refine Machine.run_invariant (I := fun u => submissionsOf s.log j ≤ submissionsOf u.log j) ?_ le_rfl h
  intro u e v earlier step
  rw [submissionsOf_step (step_cases step)]
  exact earlier.trans (Nat.le_add_right _ _)

/-! ### Every submission -/

/-- `R` holds of every submission and what was logged before it. -/
def EachSubmission (R : List Action → Nat → LibusbTransfer → Prop) (log : List Action) : Prop :=
  Log.Always (fun before a => ∀ origin t tfer r, a = .submit origin t tfer r → R before t tfer) log

variable {R : List Action → Nat → LibusbTransfer → Prop} {log more : List Action}

theorem EachSubmission.append (each : EachSubmission R log) (silent : ∀ a ∈ more, a.submits = false) :
    EachSubmission R (log ++ more) := by
  refine (Log.always_append_iff fun before a member origin t tfer r same => ?_).mpr each
  have quiet := silent a member
  simp [same, Action.submits] at quiet

theorem EachSubmission.resumeOnZero (each : EachSubmission R s.log) : EachSubmission R (resumeOnZero s).log := by
  rw [resumeOnZero_log]
  apply each.append
  intro a member
  split at member
  · rw [List.mem_singleton.mp member]
    rfl
  · cases member

theorem EachSubmission.submit {origin : Submitter} {t : Nat} {tfer : LibusbTransfer} {r : Int}
    (each : EachSubmission R log) (here : R log t tfer) : EachSubmission R (log ++ [.submit origin t tfer r]) := by
  refine Log.always_concat.mpr ⟨each, fun origin' t' tfer' r' same => ?_⟩
  obtain ⟨-, rfl, rfl, -⟩ := Action.submit.inj same
  exact here

/-- The two places where a step submits. -/
theorem eachSubmission_step (each : EachSubmission R s.log) (step : Step P q s e s')
    (loop : ∀ i, s.suspend = .submitting i → i ≠ q.used → R s.log i (s.tfers i))
    (again : ∀ u pump fresh tfer, s.callback = .entered u →
      P.process s.pump u (s.tfers u) = (pump, .submit fresh tfer) →
      R (s.log ++ if fresh then [.take u tfer.buffer.buffer] else []) u tfer) : EachSubmission R s'.log := by
  have taken : ∀ (fresh : Bool) u j, EachSubmission R (s.log ++ if fresh then [.take u j] else []) := by
    intro fresh u j
    apply each.append
    intro a member
    cases fresh with
    | true => rw [List.mem_singleton.mp member]; rfl
    | false => cases member
  cases step with
  | filled =>
    obtain ⟨_, _, takes, shape, same⟩ := fillLoop_frame P q.positions s
    rw [same]
    apply each.append
    intro a member
    obtain ⟨_, _, rfl⟩ := shape a member
    rfl
  | submitOk i at_loop more | submitFail i r at_loop more => exact each.submit (loop i at_loop more)
  | drain => exact (each.append (by simp [Action.submits])).resumeOnZero
  | enter | cancel => exact each.append (by simp [Action.submits])
  | proceedResume | storeFailure => exact EachSubmission.resumeOnZero each
  | resubmitOk u pump fresh tfer entered exit | resubmitFail u r pump fresh tfer entered failed exit =>
    exact (taken fresh u _).submit (again u pump fresh tfer entered exit)
  | ready | stopped | recordFailure | leaveLoop | complete | proceedFail | requestStop | finishStop | resume =>
    exact each

theorem submissionsOf_pos {origin : Submitter} {t : Nat} {tfer : LibusbTransfer} {r : Int}
    (member : .submit origin t tfer r ∈ log) : 0 < submissionsOf log tfer.buffer.buffer :=
  List.count_pos_iff.mpr (List.mem_map.mpr ⟨_, List.mem_filter.mpr ⟨member, rfl⟩, rfl⟩)

theorem exists_first_submission {j : Nat} (some_submission : 0 < submissionsOf log j) :
    ∃ before origin t tfer r, before ++ [.submit origin t tfer r] <+: log ∧ tfer.buffer.buffer = j ∧
      submissionsOf before j = 0 := by
  induction log using List.reverseRecOn with
  | nil => cases some_submission
  | append_singleton log a ih =>
    by_cases earlier : submissionsOf log j = 0
    · rw [submissionsOf_append, earlier] at some_submission
      cases a with
      | submit origin t tfer r =>
        refine ⟨log, origin, t, tfer, r, List.prefix_rfl, ?_, earlier⟩
        by_contra other
        simp [submissionsOf, Action.submits, Action.buffer, other] at some_submission
      | take | callback | cancel | post => simp [submissionsOf, Action.submits] at some_submission
    · obtain ⟨before, origin, t, tfer, r, initial, first⟩ := ih (Nat.pos_of_ne_zero earlier)
      exact ⟨before, origin, t, tfer, r, initial.trans (List.prefix_append _ _), first⟩

end CoUsb.Transfer

import CoUsb.Transfer.Resumption

/-!
# Failed transfers

A transfer that fails latches the stored error, and with it every later callback, unless
its error is made from an isochronous packet that completed.
-/

namespace CoUsb.Transfer

variable {σ : Type} {P : Pump σ} {q : Request} {s s' : State σ} {e : Event} {es : List Event} {t : Nat}
  {tfer : LibusbTransfer}

/-- The status the error of a failed transfer is made from: that of its first packet, where
it has packets. -/
def reported (tfer : LibusbTransfer) : TransferStatus :=
  match tfer.type, tfer.isoPackets with
  | .isochronous, packet :: _ => packet.status
  | _, _ => tfer.status

/-- A failed transfer makes `transfer_callback` fail with the status it reports. -/
def Reports (P : Pump σ) : Prop :=
  ∀ p t tfer, tfer.status ≠ .completed → (P.process p t tfer).2 = .fail (makeTransferStatus (reported tfer).code)

theorem sequenceAwaitable_reports (q : Request) : Reports (sequenceAwaitable q) := by
  intro p t tfer failed
  cases type : tfer.type <;> cases packets : tfer.isoPackets <;>
    simp [sequenceAwaitable, SequenceAwaitable.process, SequenceAwaitable.count, SequenceAwaitable.packetLoop,
      reported, type, packets, failed]

theorem completeSequenceAwaitable_reports (q : Request) (limit : Nat) :
    Reports (completeSequenceAwaitable q limit) := by
  intro p t tfer failed
  cases type : tfer.type <;> cases packets : tfer.isoPackets <;>
    simp [completeSequenceAwaitable, CompleteSequenceAwaitable.process, CompleteSequenceAwaitable.failure,
      CompleteSequenceAwaitable.packetCheck, reported, type, packets, failed]

/-! ### From the callback of a failed transfer on -/

/-- The repeated calls of `libusb_submit_transfer`. -/
def Action.resubmits : Action → Bool
  | .submit .callback _ _ _ => true
  | _ => false

def resubmissions (log : List Action) : List Action := log.filter Action.resubmits

/-- The callback of the failed `tfer` is running. -/
def Failing (t : Nat) (tfer : LibusbTransfer) (s : State σ) : Prop :=
  s.callback = .entered t ∧ s.tfers t = tfer ∨
    s.callback = .failing t (makeTransferStatus (reported tfer).code)

/-- Every later callback will drain. -/
def Latched (s : State σ) : Prop := s.callback = .idle ∧ s.ec.isError = true

theorem Failing.busy (failing : Failing t tfer s) : s.callback.transfer = some t := by
  rcases failing with ⟨entered, _⟩ | failing
  · exact busy_entered entered
  · exact busy_failing failing

/-- The callback of a failed transfer submits nothing and stores what the transfer reports. -/
theorem failing_step (reports : Reports P) (counted : Counted q s) (failed : tfer.status ≠ .completed)
    (failing : Failing t tfer s) (step : Step P q s e s') :
    resubmissions s'.log = resubmissions s.log ∧
      (Failing t tfer s' ∨ s'.callback = .idle ∧ s'.ec = makeTransferStatus (reported tfer).code) := by
  have busy := failing.busy
  obtain ⟨idle, launched⟩ := counted.running t busy
  have started := counted.started_of_submitted launched
  have exits : ∀ u, s.callback = .entered u →
      u = t ∧ (P.process s.pump u (s.tfers u)).2 = .fail (makeTransferStatus (reported tfer).code) := by
    intro u entered
    rcases failing with ⟨here, same⟩ | later
    · obtain rfl := Callback.entered.inj (entered.symm.trans here)
      rw [same]
      exact ⟨rfl, reports _ _ _ failed⟩
    · exact absurd (entered.symm.trans later) (by simp)
  cases step with
  | ready at_start | stopped at_start | filled at_start => simp [State.started, at_start] at started
  | submitOk | submitFail | cancel => exact ⟨by simp [resubmissions, Action.resubmits], Or.inl failing⟩
  | complete u c cancelled flying =>
    have different : t ≠ u := fun same => absurd (flying.symm.trans (same ▸ idle)) (by simp)
    refine ⟨rfl, Or.inl (failing.imp_left fun h => ⟨h.1, ?_⟩)⟩
    exact (Function.update_of_ne different _ _).trans h.2
  | drain u free | enter u free =>
    rw [free] at busy
    cases busy
  | proceedResume u r pump entered exit | resubmitOk u pump fresh tfer entered exit
  | resubmitFail u r pump fresh tfer entered _ exit =>
    have exit' := (exits u entered).2
    rw [exit] at exit'
    cases exit'
  | proceedFail u r pump ec entered exit =>
    obtain ⟨rfl, exit'⟩ := exits u entered
    rw [exit] at exit'
    exact ⟨rfl, Or.inl (Or.inr (by rw [Next.fail.inj exit']))⟩
  | storeFailure u ec here =>
    rcases failing with ⟨entered, _⟩ | failing
    · exact absurd (here.symm.trans entered) (by simp)
    · obtain ⟨rfl, rfl⟩ := Callback.failing.inj (here.symm.trans failing)
      refine ⟨?_, Or.inr ⟨by simp, by simp⟩⟩
      rw [resumeOnZero_log]
      split <;> simp [resubmissions, Action.resubmits]
  | recordFailure | leaveLoop | requestStop | finishStop | resume => exact ⟨rfl, Or.inl failing⟩

theorem latched_step (counted : Counted q s) (latched : Latched s) (step : Step P q s e s') :
    resubmissions s'.log = resubmissions s.log ∧ Latched s' := by
  obtain ⟨free, error⟩ := latched
  cases step with
  | ready | complete | leaveLoop | requestStop | finishStop | resume => exact ⟨rfl, free, error⟩
  | stopped => exact ⟨rfl, free, (isError_makeTransferStatus _).mpr (by decide)⟩
  | filled =>
    obtain ⟨pump, tfers, takes, shape, same⟩ := fillLoop_frame P q.positions s
    rw [same]
    refine ⟨?_, free, error⟩
    have none : takes.filter Action.resubmits = [] := List.filter_eq_nil_iff.mpr fun a member => by
      obtain ⟨_, _, rfl⟩ := shape a member
      simp [Action.resubmits]
    simp only [resubmissions, List.filter_append, none, List.append_nil]
  | submitOk | submitFail | cancel => exact ⟨by simp [resubmissions, Action.resubmits], free, error⟩
  | recordFailure i r failed =>
    have looped := counted.refused failed
    exact ⟨rfl, free, by simpa using looped.2.2⟩
  | drain =>
    refine ⟨?_, by simpa using free, by simpa using error⟩
    rw [resumeOnZero_log]
    split <;> simp [resubmissions, Action.resubmits]
  | enter _ _ _ fine => exact absurd (error.symm.trans fine) (by simp)
  | proceedResume t r pump entered | proceedFail t r pump ec entered | resubmitOk t pump fresh tfer entered
  | resubmitFail t r pump fresh tfer entered =>
    exact absurd (entered.symm.trans free) (by simp)
  | storeFailure t ec failing => exact absurd (failing.symm.trans free) (by simp)

/-! ### Runs -/

/-- A failed transfer whose callback finds no error stored does not report completion. -/
def Truthful (s : State σ) : Event → Prop
  | .callback t => s.ec.isError = false → (s.tfers t).status ≠ .completed → reported (s.tfers t) ≠ .completed
  | _ => True

instance (s : State σ) : ∀ e, Decidable (Truthful s e)
  | .callback _ => inferInstanceAs (Decidable (_ → _))
  | .suspend | .submit _ | .recordFailure | .leaveLoop | .complete _ _ | .proceed _ | .storeFailure | .requestStop
  | .cancel | .finishStop | .resume => isTrue trivial

/-- From the end of the callback of any failed transfer on, an error is stored, nothing is
submitted again and the coroutine is not resumed without an error. -/
def FailuresReported (P : Pump σ) (q : Request) (es : List Event) : Prop :=
  ∀ es₁ t es₂ es₃ u w v, es₁ ++ .callback t :: es₂ ++ es₃ <+: es →
    (machine P q).run (initial P q) es₁ = some u → (u.tfers t).status ≠ .completed →
    (machine P q).run u (.callback t :: es₂) = some w → w.callback = .idle → (machine P q).run w es₃ = some v →
    v.ec.isError = true ∧ resubmissions v.log = resubmissions u.log ∧
      ∀ ec n, v.resumed = some (ec, n) → ec.isError = true

/-- While the callback runs and after it. -/
structure Handled (t : Nat) (tfer : LibusbTransfer) (log : List Action) (s : State σ) : Prop where
  quiet : resubmissions s.log = resubmissions log
  phase : Failing t tfer s ∨ Latched s

theorem handled_step (reports : Reports P) (counted : Counted q s) (failed : tfer.status ≠ .completed)
    (truthful : reported tfer ≠ .completed) {log : List Action} (handled : Handled t tfer log s)
    (step : Step P q s e s') : Handled t tfer log s' := by
  obtain ⟨quiet, phase⟩ := handled
  rcases phase with failing | latched
  · obtain ⟨same, next⟩ := failing_step reports counted failed failing step
    refine ⟨same.trans quiet, next.imp_right fun h => ⟨h.1, ?_⟩⟩
    rw [h.2, isError_makeTransferStatus, ne_eq, TransferStatus.code_eq_zero]
    exact truthful
  · obtain ⟨same, next⟩ := latched_step counted latched step
    exact ⟨same.trans quiet, Or.inr next⟩

theorem callback_step (step : Step P q s (.callback t) s') :
    resubmissions s'.log = resubmissions s.log ∧
      (s.ec.isError = false ∧ Failing t (s.tfers t) s' ∨ s.ec.isError = true ∧ Latched s') := by
  cases step with
  | drain _ free _ failed =>
    refine ⟨?_, Or.inr ⟨failed, by simpa using free, by simpa using failed⟩⟩
    rw [resumeOnZero_log]
    split <;> simp [resubmissions, Action.resubmits]
  | enter _ _ _ fine => exact ⟨by simp [resubmissions, Action.resubmits], Or.inl ⟨fine, Or.inl ⟨rfl, rfl⟩⟩⟩

theorem handled_run (reports : Reports P) (counted : Counted q s) (failed : tfer.status ≠ .completed)
    (truthful : reported tfer ≠ .completed) {log : List Action} (handled : Handled t tfer log s)
    (h : (machine P q).run s es = some s') : Handled t tfer log s' := by
  have kept : Counted q s' ∧ Handled t tfer log s' := by
    refine Machine.run_invariant (I := fun s => Counted q s ∧ Handled t tfer log s) ?_ ⟨counted, handled⟩ h
    rintro s e s' ⟨counted, handled⟩ step
    exact ⟨counted_step counted (step_cases step),
      handled_step reports counted failed truthful handled (step_cases step)⟩
  exact kept.2

theorem latched_run (counted : Counted q s) (latched : Latched s) (h : (machine P q).run s es = some s') :
    resubmissions s'.log = resubmissions s.log ∧ Latched s' := by
  have kept : Counted q s' ∧ resubmissions s'.log = resubmissions s.log ∧ Latched s' := by
    refine Machine.run_invariant
      (I := fun u => Counted q u ∧ resubmissions u.log = resubmissions s.log ∧ Latched u) ?_
      ⟨counted, rfl, latched⟩ h
    rintro u e u' ⟨counted, same, latched⟩ step
    obtain ⟨quiet, next⟩ := latched_step counted latched (step_cases step)
    exact ⟨counted_step counted (step_cases step), quiet.trans same, next⟩
  exact kept.2

theorem failures_reported_of_truthful (reports : Reports P) (truthful : (machine P q).Meets Truthful (initial P q) es) :
    FailuresReported P q es := by
  intro es₁ t es₂ es₃ u w v initial first failed second free third
  obtain ⟨u', enter, rest⟩ := Machine.run_cons.mp second
  have counted := counted_run first
  have counted' := counted_step counted (step_cases enter)
  obtain ⟨quiet, phase⟩ := callback_step (step_cases enter)
  have latched : resubmissions w.log = resubmissions u.log ∧ Latched w := by
    rcases phase with ⟨fine, failing⟩ | ⟨_, latched⟩
    · have honest : reported (u.tfers t) ≠ .completed :=
        truthful es₁ (.callback t) u
          (List.IsPrefix.trans ⟨es₂ ++ es₃, by simp⟩ initial) first fine failed
      have handled := handled_run reports counted' failed honest ⟨quiet, Or.inl failing⟩ rest
      refine ⟨handled.quiet, handled.phase.resolve_left fun running => ?_⟩
      have busy := running.busy
      simp [free, Callback.transfer] at busy
    · obtain ⟨same, latched⟩ := latched_run counted' latched rest
      exact ⟨same.trans quiet, latched⟩
  have reached : (machine P q).run (CoUsb.Transfer.initial P q) (es₁ ++ .callback t :: es₂) = some w :=
    Machine.run_append_some.mpr ⟨u, first, second⟩
  obtain ⟨same, last⟩ := latched_run (counted_run reached) latched.2 third
  refine ⟨last.2, same.trans latched.1, fun ec n resumed => ?_⟩
  have stored := resumed_with (Machine.run_append_some.mpr ⟨w, reached, third⟩) resumed
  exact stored.1 ▸ last.2

/-- A callback that stores an empty error breaks the promise when it ends. -/
theorem truthful_of_failures_reported (reports : Reports P) (h : (machine P q).run (initial P q) es = some s)
    (free : s.callback = .idle) (all : FailuresReported P q es) :
    (machine P q).Meets Truthful (initial P q) es := by
  by_contra dishonest
  obtain ⟨es₁, e, rest, u, x, rfl, first, broken, enter, later⟩ := Machine.exists_of_not_meets h dishonest
  cases e with
  | callback t =>
    simp only [Truthful, not_forall, not_not] at broken
    obtain ⟨fine, failed, completed⟩ := broken
    obtain ⟨_, phase⟩ := callback_step (step_cases enter)
    have failing : Failing t (u.tfers t) x := by
      rcases phase with ⟨_, failing⟩ | ⟨error, _⟩
      · exact failing
      · exact absurd (error.symm.trans fine) (by simp)
    have counted := counted_step (counted_run first) (step_cases enter)
    have outside : ¬ (Counted q s ∧ Failing t (u.tfers t) s) := fun running => by
      have busy := running.2.busy
      simp [free, Callback.transfer] at busy
    obtain ⟨es₂, f, es₃, y, z, rfl, reached, ⟨counted', running⟩, last, left⟩ :=
      Machine.exists_leaving (I := fun s => Counted q s ∧ Failing t (u.tfers t) s) ⟨counted, failing⟩ later outside
    obtain ⟨_, exits⟩ := failing_step reports counted' failed running (step_cases last)
    obtain ⟨ended, stored⟩ := exits.resolve_left fun h => left ⟨counted_step counted' (step_cases last), h⟩
    have whole : (machine P q).run u (.callback t :: (es₂ ++ [f])) = some z :=
      Machine.run_cons.mpr ⟨x, enter, Machine.run_concat.mpr ⟨y, reached, last⟩⟩
    have error := (all es₁ t (es₂ ++ [f]) [] u z z ⟨es₃, by simp⟩ first failed whole ended rfl).1
    rw [stored, completed] at error
    exact absurd error (by decide)
  | _ => exact broken trivial

/-- For both awaitables: a run in which no transfer fails with a first packet that completed
reports every failed transfer, and no other run does once its last callback has ended. -/
theorem failures_reported_iff (q : Request) (limit : Nat) (es : List Event) :
    (∀ s, (machine (sequenceAwaitable q) q).run (initial (sequenceAwaitable q) q) es = some s →
      ((machine (sequenceAwaitable q) q).Meets Truthful (initial (sequenceAwaitable q) q) es →
        FailuresReported (sequenceAwaitable q) q es) ∧
      (s.callback = .idle → FailuresReported (sequenceAwaitable q) q es →
        (machine (sequenceAwaitable q) q).Meets Truthful (initial (sequenceAwaitable q) q) es)) ∧
    (∀ s, (machine (completeSequenceAwaitable q limit) q).run (initial (completeSequenceAwaitable q limit) q) es =
      some s →
      ((machine (completeSequenceAwaitable q limit) q).Meets Truthful (initial (completeSequenceAwaitable q limit) q)
          es →
        FailuresReported (completeSequenceAwaitable q limit) q es) ∧
      (s.callback = .idle → FailuresReported (completeSequenceAwaitable q limit) q es →
        (machine (completeSequenceAwaitable q limit) q).Meets Truthful
          (initial (completeSequenceAwaitable q limit) q) es)) :=
  ⟨fun _ h => ⟨failures_reported_of_truthful (sequenceAwaitable_reports q),
      truthful_of_failures_reported (sequenceAwaitable_reports q) h⟩,
    fun _ h => ⟨failures_reported_of_truthful (completeSequenceAwaitable_reports q limit),
      truthful_of_failures_reported (completeSequenceAwaitable_reports q limit) h⟩⟩

/-- One buffer of four bytes on one isochronous transfer of one packet. -/
def oneIsochronous : Request :=
  { oneBulk with prefilled := fun _ => { type := .isochronous, isoPackets := [⟨0, .completed⟩] } }

/-- The transfer fails with a packet that completed. -/
def failedWithPacket : List Event :=
  [.suspend, .submit 0, .leaveLoop, .complete 0 ⟨.error, 0, [⟨0, .completed⟩]⟩, .callback 0, .proceed 0, .storeFailure,
    .resume]

theorem failed_with_packet_not_reported :
    ¬ FailuresReported (sequenceAwaitable oneIsochronous) oneIsochronous failedWithPacket ∧
    ¬ FailuresReported (completeSequenceAwaitable oneIsochronous 4) oneIsochronous failedWithPacket := by
  constructor <;> intro all
  all_goals
    have stored := (all [.suspend, .submit 0, .leaveLoop, .complete 0 ⟨.error, 0, [⟨0, .completed⟩]⟩] 0
      [.proceed 0, .storeFailure] [.resume] _ _ _ List.prefix_rfl rfl (by decide) rfl rfl rfl).1
    exact absurd stored (by decide)

/-- The transfer fails, and its packet too. -/
def failedPacket : List Event :=
  [.suspend, .submit 0, .leaveLoop, .complete 0 ⟨.error, 0, [⟨0, .error⟩]⟩, .callback 0, .proceed 0, .storeFailure,
    .resume]

theorem failures_reported_iff_one_isochronous :
    FailuresReported (sequenceAwaitable oneIsochronous) oneIsochronous failedPacket ∧
    FailuresReported (completeSequenceAwaitable oneIsochronous 4) oneIsochronous failedPacket ∧
    ¬ (machine (sequenceAwaitable oneIsochronous) oneIsochronous).Meets Truthful
        (initial (sequenceAwaitable oneIsochronous) oneIsochronous) failedWithPacket ∧
    ¬ (machine (completeSequenceAwaitable oneIsochronous 4) oneIsochronous).Meets Truthful
        (initial (completeSequenceAwaitable oneIsochronous 4) oneIsochronous) failedWithPacket := by
  have told := failures_reported_iff oneIsochronous 4 failedPacket
  have hidden := failures_reported_iff oneIsochronous 4 failedWithPacket
  exact ⟨(told.1 _ rfl).1 (by decide), (told.2 _ rfl).1 (by decide),
    fun truthful => failed_with_packet_not_reported.1 ((hidden.1 _ rfl).1 truthful),
    fun truthful => failed_with_packet_not_reported.2 ((hidden.2 _ rfl).1 truthful)⟩

/-- The failed transfer is reported as a success. -/
theorem failed_transfer_resumes_without_error :
    (∃ s, (machine (sequenceAwaitable oneIsochronous) oneIsochronous).run
      (initial (sequenceAwaitable oneIsochronous) oneIsochronous) failedWithPacket = some s ∧
      s.resumed = some (makeTransferStatus 0, 0) ∧
      ¬ FailuresReported (sequenceAwaitable oneIsochronous) oneIsochronous failedWithPacket) ∧
    (∃ s, (machine (completeSequenceAwaitable oneIsochronous 4) oneIsochronous).run
      (initial (completeSequenceAwaitable oneIsochronous 4) oneIsochronous) failedWithPacket = some s ∧
      s.resumed = some (makeTransferStatus 0, 0) ∧
      ¬ FailuresReported (completeSequenceAwaitable oneIsochronous 4) oneIsochronous failedWithPacket) :=
  ⟨⟨_, rfl, rfl, failed_with_packet_not_reported.1⟩, ⟨_, rfl, rfl, failed_with_packet_not_reported.2⟩⟩

end CoUsb.Transfer

import CoUsb.Transfer.CompleteSequenceAwaitable
import CoUsb.Transfer.InFlight
import CoUsb.Transfer.SequenceAwaitable

/-!
# Transfers that are not isochronous

Their error is that of the transfer itself, so an operation without a stored error has met
none. The type of a transfer never changes, and no callback sees more than was asked for.
-/

namespace CoUsb.Transfer

variable {σ : Type} {P : Pump σ} {q : Request} {s s' : State σ} {e : Event} {es : List Event} {t : Nat}

/-! ### The first loop of `await_suspend` -/

def fillRound (P : Pump σ) (s : State σ) (t : Nat) : State σ :=
  { s with
    pump := (P.fill s.pump t (s.tfers t)).1
    tfers := Function.update s.tfers t (P.fill s.pump t (s.tfers t)).2
    log := s.log ++ [.take t (P.fill s.pump t (s.tfers t)).2.buffer.buffer] }

theorem fillLoop_range {I : Nat → State σ → Prop} (a n : Nat) (start : I a s)
    (round : ∀ t u, t < a + n → I t u → I (t + 1) (fillRound P u t)) :
    I (a + n) (fillLoop P (List.range' a n) s) := by
  induction n generalizing a s with
  | zero => exact start
  | succ n ih =>
    have next := ih (a + 1) (s := fillRound P s a) (round a s (by omega) start)
      fun t u bound => round t u (by omega)
    rwa [Nat.add_right_comm] at next

theorem fillLoop_positions {I : Nat → State σ → Prop} (start : I 0 s)
    (round : ∀ t u, t < q.used → I t u → I (t + 1) (fillRound P u t)) :
    I q.used (fillLoop P q.positions s) := by
  rw [Request.positions_eq]
  have done := fillLoop_range (I := I) 0 q.used start (by simpa using round)
  rwa [Nat.zero_add] at done

/-! ### Between completion and callback -/

/-- What the device reported holds of a transfer up to the exit of its callback. -/
def Landed (R : LibusbTransfer → Prop) (s : State σ) : Prop :=
  ∀ t, s.flight t = .completed ∨ s.callback = .entered t → R (s.tfers t)

variable {R : LibusbTransfer → Prop}

theorem Landed.of_frame (landed : Landed R s) (live : ∀ t, s'.flight t = .completed ∨ s'.callback = .entered t →
    (s.flight t = .completed ∨ s.callback = .entered t) ∧ s'.tfers t = s.tfers t) : Landed R s' := by
  intro t h
  obtain ⟨before, same⟩ := live t h
  rw [same]
  exact landed t before

theorem landed_step (counted : Counted q s) (landed : Landed R s) (step : Step P q s e s')
    (reported : ∀ t c, e = .complete t c → c.fits (s.tfers t) = true → R ((s.tfers t).finish c)) : Landed R s' := by
  cases step with
  | ready | stopped | submitFail | recordFailure | leaveLoop | requestStop | finishStop | resume =>
    exact landed.of_frame fun _ h => ⟨h, rfl⟩
  | filled at_start =>
    obtain ⟨free, still⟩ := counted.untouched (by simp [State.started, at_start])
    exact landed.of_frame (by simp [free, still])
  | submitOk i => exact landed.of_frame fun _ h => ⟨h.imp_left (of_update (by simp)), rfl⟩
  | complete u c cancelled flying fits =>
    intro t h
    by_cases same : t = u
    · subst t
      simpa using reported u c rfl fits
    · simp only [Function.update_of_ne same] at h ⊢
      exact landed t h
  | drain u free =>
    apply landed.of_frame
    intro t h
    simp only [resumeOnZero_flight, resumeOnZero_callback, resumeOnZero_tfers] at h ⊢
    exact ⟨h.imp_left (of_update (by simp)), trivial⟩
  | enter u free completed =>
    refine landed.of_frame fun t h => ⟨Or.inl (h.elim (of_update (by simp)) fun here => ?_), rfl⟩
    exact Callback.entered.inj here ▸ completed
  | proceedResume | storeFailure => exact landed.of_frame fun t h => ⟨Or.inl (by simpa using h), by simp⟩
  | proceedFail => exact landed.of_frame fun t h => ⟨Or.inl (by simpa using h), rfl⟩
  | resubmitOk u pump fresh tfer =>
    apply landed.of_frame
    intro t h
    have completed := h.resolve_right (by simp)
    have different : t ≠ u := fun same => by simp [same] at completed
    exact ⟨Or.inl (of_update (by simp) completed), Function.update_of_ne different _ _⟩
  | resubmitFail u r pump fresh tfer entered =>
    have idle := (counted.entered entered).1
    apply landed.of_frame
    intro t h
    have completed := h.resolve_right (by simp)
    have different : t ≠ u := fun same => absurd ((same ▸ completed).symm.trans idle) (by simp)
    exact ⟨Or.inl completed, Function.update_of_ne different _ _⟩
  | cancel i =>
    refine landed.of_frame fun t h => ⟨h.imp_left fun completed => ?_, rfl⟩
    by_cases same : t = i
    · subst t
      cases flight : s.flight i <;> simp_all [Flight.cancel]
    · exact (Function.update_of_ne same _ _).symm.trans completed

/-! ### What the awaitables do with a transfer -/

structure Regular (P : Pump σ) : Prop where
  fill_type : ∀ p t tfer, (P.fill p t tfer).2.type = tfer.type
  submit_type : ∀ p t tfer fresh tfer', (P.process p t tfer).2 = .submit fresh tfer' → tfer'.type = tfer.type
  fails : ∀ p t tfer ec, tfer.type ≠ .isochronous → (P.process p t tfer).2 = .fail ec →
    tfer.status ≠ .completed ∧ ec.isError = true

/-- No transfer of the adapter is isochronous. -/
def Request.NonIsochronous (q : Request) : Prop := ∀ t, t < q.transfers → (q.prefilled t).type ≠ .isochronous

structure Ordinary (q : Request) (s : State σ) : Prop where
  type : ∀ t, (s.tfers t).type = (q.prefilled t).type
  error : ∀ t ec, s.callback = .failing t ec → ec.isError = true
  fits : Landed (fun tfer => tfer.actualLength ≤ tfer.length.toNat) s

theorem Request.used_le_transfers (q : Request) : q.used ≤ q.transfers := Nat.min_le_right _ _

theorem Ordinary.entered (ordinary : Ordinary q s) (plain : q.NonIsochronous) (counted : Counted q s)
    (entered : s.callback = .entered t) : (s.tfers t).type ≠ .isochronous := by
  have launched := (counted.entered entered).2
  rw [ordinary.type]
  exact plain t ((counted.lt_used launched).trans_le q.used_le_transfers)

theorem Ordinary.landed (ordinary : Ordinary q s) (completed : s.flight t = .completed) :
    (s.tfers t).actualLength ≤ (s.tfers t).length.toNat := ordinary.fits t (Or.inl completed)

theorem type_update (tfers : Nat → LibusbTransfer) (tfer : LibusbTransfer) (type : tfer.type = (tfers t).type)
    (u : Nat) :
    (Function.update tfers t tfer u).type = (tfers u).type := by
  by_cases same : u = t
  · subst u; rw [Function.update_self, type]
  · rw [Function.update_of_ne same]

theorem type_step (regular : Regular P) (step : Step P q s e s') (t : Nat) : (s'.tfers t).type = (s.tfers t).type := by
  cases step with
  | filled =>
    apply fillLoop_positions (I := fun _ u => (u.tfers t).type = (s.tfers t).type) rfl
    intro v u _ before
    exact (type_update _ _ (regular.fill_type _ _ _) t).trans before
  | complete u c => exact type_update s.tfers ((s.tfers u).finish c) rfl t
  | drain | proceedResume | storeFailure => simp
  | resubmitOk u pump fresh tfer entered exit | resubmitFail u r pump fresh tfer entered failed exit =>
    exact type_update _ _ (regular.submit_type _ _ _ fresh tfer (by rw [exit])) t
  | _ => rfl

theorem ordinary_step (regular : Regular P) (plain : q.NonIsochronous) (counted : Counted q s)
    (ordinary : Ordinary q s) (step : Step P q s e s') : Ordinary q s' := by
  have error := ordinary.error
  refine ⟨fun t => (type_step regular step t).trans (ordinary.type t), ?_,
    landed_step counted ordinary.fits step fun t c _ fits => ?_⟩
  · cases step with
    | filled at_start =>
      obtain ⟨free, _⟩ := counted.untouched (by simp [State.started, at_start])
      simp [free]
    | proceedFail u r pump ec entered exit =>
      intro v ec' h
      obtain ⟨rfl, rfl⟩ := Callback.failing.inj h
      exact (regular.fails _ _ _ _ (ordinary.entered plain counted entered) (by rw [exit])).2
    | resubmitFail u r pump fresh tfer entered failed =>
      intro v ec h
      obtain ⟨rfl, rfl⟩ := Callback.failing.inj h
      simpa using failed
    | drain => simpa using error
    | enter | proceedResume | storeFailure | resubmitOk => simp
    | _ => exact error
  · simp only [Completion.fits, Bool.and_eq_true, decide_eq_true_eq] at fits
    exact fits.1

theorem ordinary_initial (P : Pump σ) (q : Request) : Ordinary q (initial P q) :=
  ⟨fun _ => rfl, by simp [initial], by simp [Landed, initial]⟩

/-! ### Operations without an error -/

/-- No error is stored or about to be stored. -/
structure Clean (s : State σ) : Prop where
  ec : s.ec.isError = false
  callback : ∀ t ec, s.callback ≠ .failing t ec
  suspend : ∀ i r, s.suspend ≠ .failed i r

theorem clean_of_step (counted : Counted q s) (ordinary : Ordinary q s) (step : Step P q s e s') (clean : Clean s') :
    Clean s := by
  obtain ⟨ec, callback, suspend⟩ := clean
  cases step with
  | ready at_start => exact ⟨ec, callback, by simp [at_start]⟩
  | stopped => exact absurd ec (by simp [TransferStatus.code])
  | filled at_start =>
    exact ⟨by simpa using ec, by simpa using callback, by simp [at_start]⟩
  | submitOk i at_loop | leaveLoop at_loop => exact ⟨ec, callback, by simp [at_loop]⟩
  | submitFail i r => exact absurd rfl (suspend i r)
  | recordFailure i r failed =>
    have looped := counted.refused failed
    exact absurd ec (by simpa using looped.2.2)
  | drain _ free _ failed => exact absurd ec (by simp [failed])
  | enter _ free => exact ⟨ec, by simp [free], suspend⟩
  | proceedResume t r pump entered => exact ⟨by simpa using ec, by simp [entered], by simpa using suspend⟩
  | proceedFail t r pump failure => exact absurd rfl (callback t failure)
  | resubmitOk t pump fresh tfer entered => exact ⟨ec, by simp [entered], suspend⟩
  | resubmitFail t r => exact absurd rfl (callback t (makeUsbErrorCode r))
  | storeFailure t ec' failing => exact absurd ec (by simp [ordinary.error t ec' failing])
  | complete | requestStop | cancel | finishStop | resume => exact ⟨ec, callback, suspend⟩

/-! ### The two awaitables -/

theorem sequenceAwaitable_regular (q : Request) : Regular (sequenceAwaitable q) := by
  refine ⟨fun p t tfer => rfl, fun p t tfer fresh tfer' next => ?_, fun p t tfer ec plain next => ?_⟩
  all_goals rcases exit : (sequenceAwaitable q).process p t tfer with ⟨p', n⟩
  all_goals
    rw [exit] at next
    subst next
  · cases sequenceAwaitable_exit exit
    rfl
  · cases sequenceAwaitable_exit exit with
    | failed _ reason =>
      rw [SequenceAwaitable.count_ordinary p plain] at reason
      obtain ⟨_, failed, rfl⟩ := reason.resolve_left (by simp)
      exact ⟨failed, by simpa [TransferStatus.code_eq_zero] using failed⟩

theorem completeSequenceAwaitable_regular (q : Request) (limit : Nat) :
    Regular (completeSequenceAwaitable q limit) := by
  refine ⟨fun p t tfer => rfl, fun p t tfer fresh tfer' next => ?_, fun p t tfer ec plain next => ?_⟩
  all_goals rcases exit : (completeSequenceAwaitable q limit).process p t tfer with ⟨p', n⟩
  all_goals
    rw [exit] at next
    subst next
  · cases completeSequenceAwaitable_exit exit <;> rfl
  · cases completeSequenceAwaitable_exit exit with
    | failed _ reason =>
      rw [CompleteSequenceAwaitable.failure_ordinary plain] at reason
      obtain ⟨_, failed, rfl⟩ := reason.resolve_left (by simp)
      exact ⟨failed, by simpa [TransferStatus.code_eq_zero] using failed⟩

end CoUsb.Transfer

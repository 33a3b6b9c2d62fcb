import CoUsb.Lib.Countdown
import CoUsb.Transfer.Steps

/-!
# The in-flight counter

`in_flight` is set for all transfers before the first submission. It counts down over the
transfers that are in flight or were never submitted, whatever the awaitable does with its
buffers.
-/

namespace CoUsb.Transfer

variable {σ : Type} {P : Pump σ} {q : Request} {s s' : State σ} {e : Event} {es : List Event} {t : Nat}

/-! ### Submitted transfers -/

/-- Whether a `libusb_submit_transfer` of `t` has succeeded. -/
def Action.launches (t : Nat) : Action → Bool
  | .submit _ t' _ r => t' == t && r == 0
  | _ => false

def submitted (log : List Action) (t : Nat) : Bool := log.any (Action.launches t)

@[simp] theorem submitted_nil (t : Nat) : submitted [] t = false := rfl

@[simp] theorem submitted_append (log more : List Action) (t : Nat) :
    submitted (log ++ more) t = (submitted log t || submitted more t) := List.any_append

@[simp] theorem submitted_singleton (a : Action) (t : Nat) : submitted [a] t = a.launches t := by
  simp [submitted]

@[simp] theorem submitted_taken (fresh : Bool) (t j t' : Nat) :
    submitted (if fresh then [.take t j] else []) t' = false := by
  cases fresh <;> rfl

theorem submitted_again {log : List Action} (launched : submitted log t = true) (fresh : Bool) (tfer : LibusbTransfer)
    (r : Int) (u : Nat) :
    submitted (log ++ (if fresh then [.take t tfer.buffer.buffer] else []) ++ [.submit .callback t tfer r]) u =
      submitted log u := by
  by_cases same : u = t
  · subst u; simp [launched]
  · simp [Action.launches, Ne.symm same]

theorem submitted_takes {takes : List Action} (shape : ∀ a ∈ takes, ∃ t j, a = Action.take t j) (t : Nat) :
    submitted takes t = false := by
  apply List.any_eq_false.mpr
  intro a member
  obtain ⟨_, _, rfl⟩ := shape a member
  simp [Action.launches]

@[simp] theorem submitted_fillLoop (P : Pump σ) (ts : List Nat) (s : State σ) (t : Nat) :
    submitted (fillLoop P ts s).log t = submitted s.log t := by
  obtain ⟨_, _, _, shape, same⟩ := fillLoop_frame P ts s
  rw [same, submitted_append, submitted_takes shape, Bool.or_false]

@[simp] theorem submitted_resumeOnZero (s : State σ) (t : Nat) :
    submitted (resumeOnZero s).log t = submitted s.log t := by
  rw [resumeOnZero_log, submitted_append]
  split <;> simp [Action.launches]

/-! ### What the counter counts -/

/-- The second loop of `await_suspend` was reached. -/
def State.started (s : State σ) : Bool :=
  match s.suspend with
  | .submitting _ | .failed _ _ | .returnedNoop => true
  | .start | .returnedHandle | .notSuspended => false

theorem started_congr (suspend : s'.suspend = s.suspend) : s'.started = s.started := by
  rw [State.started, suspend, State.started]

def Callback.transfer : Callback → Option Nat
  | .idle => none
  | .entered t | .failing t _ => some t

/-- The decrement of a running callback that may still be taken back. -/
def State.running (s : State σ) : Nat := (s.callback.transfer.map fun _ => 1).getD 0

theorem State.running_free (free : s.callback = .idle) : s.running = 0 := by
  rw [State.running, free]; rfl

theorem State.running_busy (busy : s.callback.transfer = some t) : s.running = 1 := by
  rw [State.running, busy]; rfl

/-- In flight, or not successfully submitted yet. -/
def State.isOpen (s : State σ) (t : Nat) : Prop := s.flight t ≠ .idle ∨ submitted s.log t = false

instance (s : State σ) (t : Nat) : Decidable (s.isOpen t) := inferInstanceAs (Decidable (_ ∨ _))

def unfinished (q : Request) (s : State σ) : Finset Nat := (Finset.range q.used).filter s.isOpen

def countdown (s : State σ) : Countdown := ⟨s.inFlight + s.running, s.posted⟩

/-- Exactly the first `k` transfers were submitted. -/
def Launched (q : Request) (s : State σ) (k : Nat) : Prop :=
  k ≤ q.used ∧ ∀ t, submitted s.log t = true ↔ t < k

/-- How far the submission loop came. -/
def Looped (q : Request) (s : State σ) : Prop :=
  match s.suspend with
  | .submitting i => Launched q s i
  | .failed i r => Launched q s i ∧ i < q.used ∧ r ≠ 0
  | .returnedNoop => ∃ k, Launched q s k
  | .start | .returnedHandle | .notSuspended => Launched q s 0

structure Counted (q : Request) (s : State σ) : Prop where
  looped : Looped q s
  flying : ∀ t, s.flight t ≠ .idle → submitted s.log t = true
  running : ∀ t, s.callback.transfer = some t → s.flight t = .idle ∧ submitted s.log t = true
  unstarted : s.started = false → s.inFlight = 0 ∧ s.posted = 0
  count : s.started = true → s.inFlight = (unfinished q s).card
  exact : s.started = true → Countdown.Exact q.used (countdown s)

theorem Looped.launched (looped : Looped q s) : ∃ k, Launched q s k := by
  unfold Looped at looped
  split at looped
  case h_1 => exact ⟨_, looped⟩
  case h_2 => exact ⟨_, looped.1⟩
  case h_3 => exact looped
  all_goals exact ⟨0, looped⟩

theorem Counted.submitting {i : Nat} (counted : Counted q s) (at_loop : s.suspend = .submitting i) :
    Launched q s i := by
  simpa only [Looped, at_loop] using counted.looped

theorem Counted.refused {i : Nat} {r : Int} (counted : Counted q s) (failed : s.suspend = .failed i r) :
    Launched q s i ∧ i < q.used ∧ r ≠ 0 := by
  simpa only [Looped, failed] using counted.looped

theorem Launched.next {i : Nat} (launched : Launched q s i) : submitted s.log i = false :=
  Bool.eq_false_iff.mpr fun h => lt_irrefl i ((launched.2 i).mp h)

theorem Counted.lt_used (counted : Counted q s) (h : submitted s.log t = true) : t < q.used := by
  obtain ⟨k, bound, launched⟩ := counted.looped.launched
  exact ((launched t).mp h).trans_le bound

theorem Counted.started_of_submitted (counted : Counted q s) (h : submitted s.log t = true) :
    s.started = true := by
  have looped := counted.looped
  unfold Looped at looped
  unfold State.started
  split at looped <;> simp_all [Launched]

theorem busy_entered (entered : s.callback = .entered t) : s.callback.transfer = some t := by
  rw [entered, Callback.transfer]

theorem busy_failing {ec : ErrorCode} (failing : s.callback = .failing t ec) : s.callback.transfer = some t := by
  rw [failing, Callback.transfer]

theorem Counted.entered (counted : Counted q s) (entered : s.callback = .entered t) :
    s.flight t = .idle ∧ submitted s.log t = true :=
  counted.running t (busy_entered entered)

theorem Counted.started_of_busy (counted : Counted q s) (busy : s.callback.transfer = some t) : s.started = true :=
  counted.started_of_submitted (counted.running t busy).2

theorem Counted.started_of_flying (counted : Counted q s) (flying : s.flight t ≠ .idle) : s.started = true :=
  counted.started_of_submitted (counted.flying t flying)

theorem Counted.unlaunched (counted : Counted q s) (unstarted : s.started = false) (t : Nat) :
    submitted s.log t = false :=
  Bool.eq_false_iff.mpr fun h => by simp [counted.started_of_submitted h] at unstarted

theorem Counted.untouched (counted : Counted q s) (unstarted : s.started = false) :
    s.callback = .idle ∧ ∀ t, s.flight t = .idle := by
  have fresh : ∀ t, submitted s.log t ≠ true := fun t => Bool.eq_false_iff.mp (counted.unlaunched unstarted t)
  constructor
  · cases busy : s.callback with
    | idle => rfl
    | entered t | failing t ec => exact absurd (counted.running t (by rw [busy]; rfl)).2 (fresh t)
  · intro t
    by_contra flying
    exact fresh t (counted.flying t flying)

theorem Counted.idle_filled (counted : Counted q s) (unstarted : s.started = false) :
    (fillLoop P q.positions s).callback = .idle :=
  (fillLoop_callback ..).trans (counted.untouched unstarted).1

theorem Counted.ne_of_flying {cancelled : Bool} (counted : Counted q s) (flying : s.flight u = .inFlight cancelled)
    (busy : s.callback.transfer = some t) : t ≠ u := by
  rintro rfl
  cases flying.symm.trans (counted.running t busy).1

theorem Counted.begun_of_busy (counted : Counted q s) (busy : s.callback.transfer = some t) : s.suspend ≠ .start := by
  intro at_start
  simp [(counted.untouched (by simp [State.started, at_start])).1, Callback.transfer] at busy

theorem Counted.begun_of_entered (counted : Counted q s) (entered : s.callback = .entered t) : s.suspend ≠ .start :=
  counted.begun_of_busy (busy_entered entered)

theorem Counted.begun_of_flying (counted : Counted q s) (t : Nat) (flying : s.flight t ≠ .idle) :
    s.suspend ≠ .start :=
  fun at_start => flying ((counted.untouched (by simp [State.started, at_start])).2 t)

theorem unfinished_congr (same : ∀ t, s'.isOpen t ↔ s.isOpen t) : unfinished q s' = unfinished q s :=
  Finset.filter_congr fun t _ => same t

theorem mem_unfinished : t ∈ unfinished q s ↔ t < q.used ∧ s.isOpen t := by
  simp [unfinished]

theorem unfinished_close (s s' : State σ) (after : ¬ s'.isOpen t) (frame : ∀ u, u ≠ t → (s'.isOpen u ↔ s.isOpen u)) :
    unfinished q s' = (unfinished q s).erase t := by
  ext u
  rw [Finset.mem_erase, mem_unfinished, mem_unfinished]
  by_cases same : u = t
  · subst u; simp [after]
  · simp [same, frame u same]

theorem card_close (s s' : State σ) (bound : t < q.used) (before : s.isOpen t) (after : ¬ s'.isOpen t)
    (frame : ∀ u, u ≠ t → (s'.isOpen u ↔ s.isOpen u)) :
    (unfinished q s').card + 1 = (unfinished q s).card := by
  rw [unfinished_close s s' after frame, Finset.card_erase_add_one (mem_unfinished.mpr ⟨bound, before⟩)]

/-! ### One step -/

theorem resumeOnZero_retires {u : State σ} (free : u.callback = .idle) (posted : u.posted = s.posted)
    (one : u.inFlight + 1 = s.inFlight + s.running) :
    Countdown.Step (countdown s) (countdown (resumeOnZero u)) := by
  have retired : countdown (resumeOnZero u) = (countdown s).retire := by
    rw [Countdown.retire_eq (n := u.inFlight) one.symm]
    simp only [countdown, State.running_free (s := resumeOnZero u) (by simpa using free), resumeOnZero_inFlight,
      resumeOnZero_posted, posted, Nat.add_zero]
  rw [retired]
  exact .retire _ (by simp only [countdown]; omega)

theorem Looped.congr (looped : Looped q s) (suspend : s'.suspend = s.suspend)
    (log : ∀ t, submitted s'.log t = submitted s.log t) : Looped q s' := by
  simpa only [Looped, suspend, Launched, log] using looped

theorem Counted.of_frame (counted : Counted q s) (looped : Looped q s') (started : s'.started = s.started)
    (callback : s'.callback.transfer = s.callback.transfer) (inFlight : s'.inFlight = s.inFlight)
    (posted : s'.posted = s.posted) (flight : ∀ t, s'.flight t = .idle ↔ s.flight t = .idle)
    (log : ∀ t, submitted s'.log t = submitted s.log t) : Counted q s' := by
  obtain ⟨_, flying, running, unstarted, count, exact⟩ := counted
  have busy : s'.running = s.running := by simp only [State.running, callback]
  have same : unfinished q s' = unfinished q s :=
    unfinished_congr fun t => by simp only [State.isOpen, ne_eq, flight, log]
  refine ⟨looped, ?_, ?_, ?_, ?_, ?_⟩
  · intro t h
    rw [log]
    exact flying t fun idle => h ((flight t).mpr idle)
  · intro t h
    rw [callback] at h
    rw [flight, log]
    exact running t h
  · rw [started, inFlight, posted]
    exact unstarted
  · rw [started, inFlight, same]
    exact count
  · rw [started]
    simpa only [countdown, inFlight, busy, posted] using exact

theorem Counted.card_pos (counted : Counted q s) (flying : s.flight t ≠ .idle) : 0 < (unfinished q s).card :=
  Finset.card_pos.mpr ⟨t, mem_unfinished.mpr ⟨counted.lt_used (counted.flying t flying), Or.inl flying⟩⟩

theorem Counted.inFlight_pos (counted : Counted q s) (flying : s.flight t ≠ .idle) : 0 < s.inFlight := by
  rw [counted.count (counted.started_of_flying flying)]
  exact counted.card_pos flying

theorem card_unfinished_le (q : Request) (s : State σ) : (unfinished q s).card ≤ q.used :=
  (Finset.card_filter_le _ _).trans_eq (Finset.card_range _)

theorem Counted.sub_one (counted : Counted q s) (flying : s.flight t ≠ .idle) :
    Word.sub 64 s.inFlight 1 + 1 = s.inFlight := by
  have count := counted.count (counted.started_of_flying flying)
  have pos := counted.inFlight_pos flying
  have le := card_unfinished_le q s
  have small := q.used_lt
  rw [Word.sub_of_le pos (by omega)]
  omega

theorem of_update {f : Nat → Flight} {g x : Flight} {i : Nat} (other : g ≠ x) (h : Function.update f i g t = x) :
    f t = x := by
  by_cases same : t = i
  · rw [same, Function.update_self] at h
    exact absurd h other
  · rwa [Function.update_of_ne same] at h

theorem update_idle_iff {f : Nat → Flight} {g : Flight} (i t : Nat) (same : g = .idle ↔ f i = .idle) :
    Function.update f i g t = .idle ↔ f t = .idle := by
  by_cases h : t = i
  · rw [h, Function.update_self, same]
  · rw [Function.update_of_ne h]

theorem counted_filled (counted : Counted q s) (at_start : s.suspend = .start) :
    Counted q (s.fill P q) := by
  have unstarted : s.started = false := by simp [State.started, at_start]
  obtain ⟨idle, still⟩ := counted.untouched unstarted
  have free : s.callback.transfer = none := by rw [idle]; rfl
  have posted := (counted.unstarted unstarted).2
  have log : ∀ t, submitted (fillLoop P q.positions s).log t = false := fun t =>
    (submitted_fillLoop ..).trans (counted.unlaunched unstarted t)
  obtain ⟨pump, tfers, takes, _, same⟩ := fillLoop_frame P q.positions s
  rw [same] at log
  rw [State.fill, same]
  refine ⟨⟨Nat.zero_le _, by simp [log]⟩, ?_, ?_, by simp [State.started], fun _ => ?_, fun _ => ?_⟩
  · intro t flying
    exact absurd (still t) flying
  · intro t busy
    exact absurd (busy.symm.trans free) (by simp)
  · have all : (unfinished q { s with
        pump, tfers, log := s.log ++ takes, suspend := .submitting 0, inFlight := q.used }) = Finset.range q.used :=
      Finset.filter_true_of_mem fun t _ => Or.inr (log t)
    exact ((congrArg Finset.card all).trans (Finset.card_range _)).symm
  · simpa [countdown, State.running, free, posted] using Countdown.start_exact q.used

theorem counted_launch {i : Nat} (counted : Counted q s) (at_loop : s.suspend = .submitting i) (more : i ≠ q.used) :
    Counted q (s.launch i) := by
  obtain ⟨bound, launched⟩ := counted.submitting at_loop
  have started : s.started = true := by simp [State.started, at_loop]
  have log : ∀ t, submitted (s.log ++ [.submit .loop i (s.tfers i) 0]) t = true ↔ t < i + 1 := by
    intro t
    simp only [submitted_append, submitted_singleton, Action.launches, Bool.or_eq_true, launched, beq_self_eq_true,
      Bool.and_true, beq_iff_eq]
    omega
  refine ⟨⟨by omega, log⟩, ?_, ?_, by simp [State.started], fun _ => ?_, fun _ => counted.exact started⟩
  · intro t flying
    dsimp only at flying
    rw [log]
    by_cases same : t = i
    · omega
    · rw [Function.update_of_ne same] at flying
      exact Nat.lt_succ_of_lt ((launched t).mp (counted.flying t flying))
  · intro t busy
    obtain ⟨idle, before⟩ := counted.running t busy
    have earlier := (launched t).mp before
    refine ⟨?_, (log t).mpr (by omega)⟩
    dsimp only
    rwa [Function.update_of_ne (by omega)]
  · refine (counted.count started).trans (congrArg Finset.card (unfinished_congr fun t => ?_)).symm
    simp only [State.isOpen]
    by_cases here : t = i
    · subst t
      have absent := (counted.submitting at_loop).next
      simp [absent]
    · rw [Function.update_of_ne here]
      simp [Action.launches, Ne.symm here]

theorem counted_enter (counted : Counted q s) (free : s.callback = .idle) (flying : s.flight t ≠ .idle) :
    Counted q (s.enter t) := by
  have launched := counted.flying t flying
  have started := counted.started_of_submitted launched
  have less := counted.sub_one flying
  have log : ∀ u, submitted (s.enter t).log u = submitted s.log u := by simp [Action.launches]
  have kept : ∀ u, Function.update s.flight t .idle u ≠ .idle → s.flight u ≠ .idle := by
    intro u h
    by_cases same : u = t
    · exact absurd (same ▸ Function.update_self ..) h
    · rwa [Function.update_of_ne same] at h
  refine ⟨counted.looped.congr rfl log, ?_, ?_, ?_, fun _ => ?_, fun _ => ?_⟩
  · intro u h
    rw [log]
    exact counted.flying u (kept u h)
  · intro u busy
    obtain rfl := Option.some.inj busy
    exact ⟨Function.update_self .., (log t).trans launched⟩
  · intro unstarted
    exact absurd (started.symm.trans unstarted) (by simp)
  · have closed := card_close s (s.enter t) (counted.lt_used launched) (Or.inl flying) (by simp [State.isOpen, log, launched])
      (fun u different => by simp only [State.isOpen, log, Function.update_of_ne different])
    have count := counted.count started
    dsimp only
    omega
  · have exact := counted.exact started
    rw [countdown, State.running_free free, Nat.add_zero, ← less] at exact
    exact exact

theorem counted_leave {u : State σ} (counted : Counted q s) (busy : s.callback.transfer = some t)
    (suspend : u.suspend = s.suspend) (free : u.callback = .idle) (inFlight : u.inFlight = s.inFlight)
    (posted : u.posted = s.posted) (flight : u.flight = s.flight) (log : u.log = s.log) :
    Counted q (resumeOnZero u) := by
  have started := counted.started_of_busy busy
  have same : ∀ t, submitted (resumeOnZero u).log t = submitted s.log t := fun t => by
    rw [submitted_resumeOnZero, log]
  have still : (resumeOnZero u).flight = s.flight := by rw [resumeOnZero_flight, flight]
  refine ⟨counted.looped.congr (by simpa using suspend) same, ?_, ?_, ?_, fun _ => ?_, fun _ => ?_⟩
  · intro t h
    rw [same]
    exact counted.flying t (still ▸ h)
  · intro t h
    simp [free, Callback.transfer] at h
  · intro unstarted
    simp only [State.started, resumeOnZero_suspend, suspend] at unstarted
    exact absurd (started.symm.trans unstarted) (by simp)
  · have open_same : unfinished q (resumeOnZero u) = unfinished q s :=
      unfinished_congr fun t => by simp only [State.isOpen, still, same]
    rw [resumeOnZero_inFlight, inFlight, open_same]
    exact counted.count started
  · exact Countdown.step_exact (counted.exact started)
      (resumeOnZero_retires free posted (by rw [inFlight, State.running_busy busy]))

theorem counted_relaunch {pump : σ} {tfer : LibusbTransfer} {fresh : Bool} (counted : Counted q s)
    (busy : s.callback.transfer = some t) :
    Counted q (s.resubmit t pump fresh tfer) := by
  obtain ⟨idle, launched⟩ := counted.running t busy
  have started := counted.started_of_submitted launched
  have log : ∀ u, submitted (s.log ++ (if fresh then [.take t tfer.buffer.buffer] else []) ++
      [.submit .callback t tfer 0]) u = submitted s.log u := submitted_again launched fresh tfer 0
  have bound := counted.lt_used launched
  have closed := card_close (q := q) (s.resubmit t pump fresh tfer) s
    bound (by simp [State.isOpen]) (by simp [State.isOpen, idle, launched])
    (fun u different => by simp only [State.isOpen, log, Function.update_of_ne different])
  have count := counted.count started
  have more : sizeT (s.inFlight + 1) = s.inFlight + 1 := by
    have le := card_unfinished_le q (s.resubmit t pump fresh tfer)
    have small := q.used_lt
    exact Word.wrap_of_lt (by omega)
  refine ⟨counted.looped.congr rfl log, ?_, ?_, ?_, fun _ => ?_, fun _ => ?_⟩
  · intro u h
    dsimp only at h
    rw [log]
    by_cases same : u = t
    · exact same ▸ launched
    · rw [Function.update_of_ne same] at h
      exact counted.flying u h
  · intro u h
    simp [Callback.transfer] at h
  · intro unstarted
    exact absurd (started.symm.trans unstarted) (by simp)
  · dsimp only
    omega
  · have exact := counted.exact started
    rw [countdown, State.running_busy busy] at exact
    rw [countdown, State.running_free rfl]
    dsimp only
    rwa [more, Nat.add_zero]

theorem counted_step (counted : Counted q s) (step : Step P q s e s') : Counted q s' := by
  have looped := counted.looped
  cases step with
  | ready at_start | stopped at_start =>
    refine counted.of_frame ?_ (by simp [State.started, at_start]) rfl rfl rfl (fun _ => Iff.rfl) fun _ => rfl
    simp only [Looped, at_start] at looped
    exact looped
  | filled at_start => exact counted_filled counted at_start
  | submitOk i at_loop more => exact counted_launch counted at_loop more
  | submitFail i r at_loop more failed =>
    have launched := counted.submitting at_loop
    have log : ∀ t, submitted (s.log ++ [.submit .loop i (s.tfers i) r]) t = submitted s.log t := by
      simp [Action.launches, failed]
    refine counted.of_frame ?_ (by simp [State.started, at_loop]) rfl rfl rfl (fun _ => Iff.rfl) log
    exact ⟨⟨launched.1, by simpa only [log] using launched.2⟩, lt_of_le_of_ne launched.1 more, failed⟩
  | recordFailure i r failed =>
    have launched := (counted.refused failed).1
    exact counted.of_frame ⟨i, launched⟩ (by simp [State.started, failed]) rfl rfl rfl (fun _ => Iff.rfl) fun _ => rfl
  | leaveLoop at_end =>
    have launched := counted.submitting at_end
    exact counted.of_frame ⟨_, launched⟩ (by simp [State.started, at_end]) rfl rfl rfl (fun _ => Iff.rfl) fun _ => rfl
  | complete t c cancelled flying =>
    have flight : ∀ u, Function.update s.flight t .completed u = .idle ↔ s.flight u = .idle :=
      fun u => update_idle_iff t u (by simp [flying])
    exact counted.of_frame (looped.congr rfl fun _ => rfl) rfl rfl rfl rfl flight fun _ => rfl
  | drain t free completed =>
    have entered := counted_enter counted free (by simp [completed] : s.flight t ≠ .idle)
    exact counted_leave entered rfl rfl free rfl rfl rfl rfl
  | enter t free completed => exact counted_enter counted free (by simp [completed])
  | proceedResume t r pump entered =>
    exact counted_leave counted (busy_entered entered) rfl rfl rfl rfl rfl rfl
  | proceedFail t r pump ec entered =>
    exact counted.of_frame (looped.congr rfl fun _ => rfl) rfl (busy_entered entered).symm rfl rfl
      (fun _ => Iff.rfl) fun _ => rfl
  | resubmitOk t pump fresh tfer entered => exact counted_relaunch counted (busy_entered entered)
  | resubmitFail t r pump fresh tfer entered failed =>
    have log : ∀ u, submitted (s.log ++ (if fresh then [.take t tfer.buffer.buffer] else []) ++
        [.submit .callback t tfer r]) u = submitted s.log u := by
      simp [Action.launches, failed]
    exact counted.of_frame (looped.congr rfl log) rfl (busy_entered entered).symm rfl rfl (fun _ => Iff.rfl) log
  | storeFailure t ec failing => exact counted_leave counted (busy_failing failing) rfl rfl rfl rfl rfl rfl
  | requestStop | finishStop | resume =>
    exact counted.of_frame (looped.congr rfl fun _ => rfl) rfl rfl rfl rfl (fun _ => Iff.rfl) fun _ => rfl
  | cancel i =>
    have log : ∀ u, submitted (s.log ++ [.cancel i]) u = submitted s.log u := by simp [Action.launches]
    have flight : ∀ u, Function.update s.flight i (s.flight i).cancel u = .idle ↔ s.flight u = .idle :=
      fun u => update_idle_iff i u (by cases s.flight i <;> simp [Flight.cancel])
    exact counted.of_frame (looped.congr rfl log) rfl rfl rfl rfl flight log

theorem counted_initial (P : Pump σ) (q : Request) : Counted q (initial P q) :=
  ⟨⟨Nat.zero_le _, by simp [initial]⟩, by simp [initial], by simp [initial, Callback.transfer],
    by simp [initial], by simp [initial, State.started], by simp [initial, State.started]⟩

theorem counted_run (h : (machine P q).run (initial P q) es = some s) : Counted q s :=
  Machine.run_invariant (fun counted step => counted_step counted (step_cases step)) (counted_initial P q) h

end CoUsb.Transfer

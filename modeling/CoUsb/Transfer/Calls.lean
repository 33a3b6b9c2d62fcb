import CoUsb.Transfer.ByteCount
import CoUsb.Transfer.Cancellation
import CoUsb.Transfer.Resumption

/-!
# The calls of one adapter

An adapter makes one call after another on the transfers it has for life, for a coroutine with one stop token. A call
finds the transfers as the call before has left them, and a stop token that may have been requested long ago.
-/

namespace CoUsb.Transfer

/-- The buffers of one call. -/
structure Buffers where
  sizes : List Nat
  sizes_lt : ∀ n ∈ sizes, n < 2 ^ 64
  length_lt : sizes.length < 2 ^ 64

def Buffers.single (n : Nat) (fits : n < 2 ^ 64) : Buffers := ⟨[n], by simpa using fits, by simp⟩

/-- An adapter over `transfers` transfers with functions `ι`: the awaitable of each function, and the assertions of the
constructor of that awaitable. -/
structure Adapter {ι : Type} (σ : ι → Type) where
  transfers : Nat
  awaitable : (f : ι) → Request → Pump (σ f)
  asserts : ι → Request → Bool

/-- The only function is `submit`. -/
def partialIoBase (n : Nat) : Adapter fun _ : Unit => SequenceState := ⟨n, fun _ => sequenceAwaitable, fun _ _ => true⟩

/-- The functions of `complete_io_base`, which inherits `submit`. -/
inductive CompleteFunction where
  | submit | completeSubmit
  deriving DecidableEq, Repr

abbrev CompleteFunction.State : CompleteFunction → Type
  | .submit => SequenceState
  | .completeSubmit => CompleteState

def completeIoBase (n singleTransferLimit : Nat) : Adapter CompleteFunction.State where
  transfers := n
  awaitable
    | .submit => sequenceAwaitable
    | .completeSubmit => fun q => completeSequenceAwaitable q singleTransferLimit
  asserts
    | .submit => fun _ => true
    | .completeSubmit => fun q => 0 < q.used && 0 < singleTransferLimit

structure Call {ι : Type} (σ : ι → Type) where
  function : ι
  request : Request
  /-- Stop was requested before it. -/
  stopped : Bool
  state : State (σ function)

/-- The awaitable the call waits on. -/
abbrev Call.awaitable {ι : Type} {σ : ι → Type} (A : Adapter σ) (c : Call σ) : Pump (σ c.function) :=
  A.awaitable c.function c.request

namespace Adapter

variable {ι : Type} {σ : ι → Type}

structure Session {ι : Type} (σ : ι → Type) where
  tfers : Nat → LibusbTransfer
  flight : Nat → Flight := fun _ => .idle
  stopRequested : Bool := false
  current : Option (Call σ) := none
  returned : List (Call σ) := []

inductive Event (ι : Type) where
  | call (function : ι) (buffers : Buffers)
  /-- A step of the current call. -/
  | within (e : Transfer.Event)
  | requestStop
  /-- The coroutine of the current call has its result and ends. -/
  | finish

/-- A `stop_callback` is constructed for a token that was requested before: its cancel loop runs at once. -/
def cancelLoop {σ : Type} : List Nat → State σ → State σ
  | [], s => { s with stop := .finished }
  | i :: is, s =>
    cancelLoop is
      { s with
        flight := Function.update s.flight i (s.flight i).cancel
        log := s.log ++ [.cancel i] }

def request (A : Adapter σ) (S : Session σ) (buffers : Buffers) : Request where
  sizes := buffers.sizes
  transfers := A.transfers
  prefilled := S.tfers
  sizes_lt := buffers.sizes_lt
  length_lt := buffers.length_lt

/-- A call up to its `co_await`. -/
def call (A : Adapter σ) (S : Session σ) (f : ι) (buffers : Buffers) : Call σ :=
  let q := A.request S buffers
  let s : State (σ f) := { pump := (A.awaitable f q).start, tfers := S.tfers, flight := S.flight }
  ⟨f, q, S.stopRequested, if S.stopRequested then cancelLoop (List.range' q.view.begin q.used) s else s⟩

def within (A : Adapter σ) (S : Session σ) (c : Call σ) (e : Transfer.Event) : Option (Session σ) :=
  (Transfer.step (c.awaitable A) c.request c.state e).map fun s =>
    { S with current := some { c with state := s } }

/-- The destructor of the `stop_callback` waits for a cancel loop that runs. -/
def canFinish {σ : Type} (s : State σ) : Bool :=
  s.resumed.isSome && match s.stop with
    | .cancelling _ => false
    | .idle | .finished => true

def step (A : Adapter σ) (S : Session σ) : Event ι → Option (Session σ)
  | .call f buffers =>
    if S.current.isNone && A.asserts f (A.request S buffers) then some { S with current := some (call A S f buffers) }
    else none
  | .within e => match S.current with
    | some c => if e = .requestStop then none else within A S c e
    | none => none
  | .requestStop =>
    if S.stopRequested then none
    else
      let S := { S with stopRequested := true }
      match S.current with
      | some c => within A S c .requestStop
      | none => some S
  | .finish => match S.current with
    | some c =>
      if canFinish c.state then
        some { S with tfers := c.state.tfers, flight := c.state.flight, current := none, returned := S.returned ++ [c] }
      else none
    | none => none

def machine (A : Adapter σ) : Machine (Session σ) (Event ι) := ⟨step A⟩

def Session.calls (S : Session σ) : List (Call σ) := S.returned ++ S.current.toList

/-! ### The law -/

/-- The call has run as one that finds nothing in flight and a stop token of its own. -/
def Runs (A : Adapter σ) (c : Call σ) : Prop :=
  ∃ es, (Transfer.machine (c.awaitable A) c.request).run (initial (c.awaitable A) c.request) es =
    some c.state

/-- Nothing was submitted, and the result is that of a call that was stopped or had nothing to do. -/
structure Declined (c : Call σ) : Prop where
  submissions : submissions c.state.log = []
  result : ∀ ec n, c.state.resumed = some (ec, n) →
    n = 0 ∧ (ec = makeTransferStatus TransferStatus.cancelled.code ∨ c.request.sizes = [] ∧ ec = {})

structure Separate (A : Adapter σ) (tfers : Nat → LibusbTransfer) (S : Session σ) : Prop where
  runs : ∀ c ∈ S.calls, Runs A c
  /-- A call that has returned has left nothing behind. -/
  ended : ∀ c ∈ S.returned, Over c.request c.state
  rest : S.current = none → ∀ t, S.flight t = .idle
  types : ∀ c ∈ S.calls, ∀ t, (c.request.prefilled t).type = (tfers t).type
  /-- No transfer is submitted while it is in flight. -/
  submits : ∀ c e s origin t tfer r, S.current = some c →
    (Transfer.machine (c.awaitable A) c.request).step c.state e = some s →
    .submit origin t tfer r ∈ made (c.awaitable A) c.state e → c.state.flight t = .idle
  declined : ∀ c ∈ S.calls, c.stopped = true → Declined c

/-! ### A call that finds its stop requested -/

section

variable {σ : Type} {P : Pump σ} {q : Request} {s s' : State σ} {e : Transfer.Event}

theorem cancelLoop_frame (is : List Nat) (s : State σ) : ∃ flight cancels, Transfer.submissions cancels = [] ∧
    cancelLoop is s = { s with flight, log := s.log ++ cancels, stop := .finished } := by
  induction is generalizing s with
  | nil => exact ⟨s.flight, [], rfl, by simp [cancelLoop]⟩
  | cons i is ih =>
    obtain ⟨flight, cancels, none, same⟩ := ih
      { s with
        flight := Function.update s.flight i (s.flight i).cancel
        log := s.log ++ [.cancel i] }
    refine ⟨flight, .cancel i :: cancels, by simp [none, Action.submits], ?_⟩
    rw [cancelLoop, same]
    simp

/-- The cancel loop of the constructor is that of a stop callback nothing comes in between. -/
theorem cancelLoop_run (s : State σ) {k left : Nat} (total : k + left = q.used) :
    (Transfer.machine P q).run { s with stop := .cancelling k } (List.replicate left .cancel ++ [.finishStop]) =
      some (cancelLoop (List.range' k left) s) := by
  induction left generalizing s k with
  | zero =>
    obtain rfl : k = q.used := total
    simp [Machine.run_cons, Transfer.machine, Transfer.step, cancelLoop]
  | succ left ih =>
    rw [List.replicate_succ, List.cons_append, Machine.run_cons, List.range'_succ, cancelLoop]
    refine ⟨_, ?_, ih _ (by omega)⟩
    have more : k ≠ q.used := by omega
    simp [Transfer.machine, Transfer.step, more]

theorem stopped_run (s : State σ) (quiet : s.stop = .idle) :
    ∃ es, (Transfer.machine P q).run s es = some (cancelLoop (List.range' q.view.begin q.used) s) := by
  refine ⟨.requestStop :: (List.replicate q.used .cancel ++ [.finishStop]), ?_⟩
  exact Machine.run_cons.mpr
    ⟨{ s with stop := .cancelling q.view.begin }, if_pos quiet, cancelLoop_run s (Nat.zero_add _)⟩

/-- A call that began with its stop requested. -/
structure Declining {σ : Type} (P : Pump σ) (s : State σ) : Prop where
  stop : s.stop = .finished
  unsuspended : s.suspend = .start ∨ s.suspend = .returnedHandle ∨ s.suspend = .notSuspended
  fine : s.suspend = .start → s.ec = {}
  pump : s.pump = P.start
  submissions : Transfer.submissions s.log = []
  result : ∀ ec n, s.resumed = some (ec, n) → n = P.total P.start ∧
    (ec = makeTransferStatus TransferStatus.cancelled.code ∨ P.ready P.start = true ∧ ec = {})

theorem cancelLoop_tfers (is : List Nat) (s : State σ) : (cancelLoop is s).tfers = s.tfers := by
  obtain ⟨_, _, _, same⟩ := cancelLoop_frame is s
  rw [same]

theorem declining_stopped (P : Pump σ) (q : Request) (is : List Nat) : Declining P (cancelLoop is (initial P q)) := by
  obtain ⟨_, _, none, same⟩ := cancelLoop_frame is (initial P q)
  rw [same]
  exact ⟨rfl, .inl rfl, fun _ => rfl, rfl, none, by simp [initial]⟩

theorem declining_step (counted : Counted q s) (declining : Declining P s) (step : Step P q s e s') :
    Declining P s' := by
  obtain ⟨stop, unsuspended, fine, pump, submissions, result⟩ := declining
  have unstarted : s.started = false := by rcases unsuspended with h | h | h <;> simp [State.started, h]
  obtain ⟨free, still⟩ := counted.untouched unstarted
  cases step with
  | ready at_start ready =>
    refine ⟨stop, .inr (.inr rfl), by simp, pump, submissions, fun ec n h => ?_⟩
    obtain ⟨rfl, rfl⟩ := Prod.mk.inj (Option.some.inj h)
    rw [pump] at ready ⊢
    exact ⟨rfl, .inr ⟨ready, fine at_start⟩⟩
  | stopped at_start =>
    refine ⟨stop, .inr (.inl rfl), by simp, pump, submissions, fun ec n h => ?_⟩
    obtain ⟨rfl, rfl⟩ := Prod.mk.inj (Option.some.inj h)
    exact ⟨by rw [pump], .inl rfl⟩
  | filled at_start _ running => cases running.symm.trans stop
  | submitOk i at_loop | submitFail i r at_loop | recordFailure i r at_loop | leaveLoop at_loop =>
    simp [at_loop] at unsuspended
  | complete t c cancelled flying => cases flying.symm.trans (still t)
  | drain t _ completed | enter t _ completed => cases completed.symm.trans (still t)
  | proceedResume t r pump entered | proceedFail t r pump ec entered | resubmitOk t pump fresh tfer entered
  | resubmitFail t r pump fresh tfer entered => cases entered.symm.trans free
  | storeFailure t ec failing => cases failing.symm.trans free
  | requestStop quiet => cases quiet.symm.trans stop
  | cancel i cancelling | finishStop cancelling => cases cancelling.symm.trans stop
  | resume posted =>
    have none := (counted.unstarted unstarted).2
    omega

theorem made_idle {origin : Submitter} {t : Nat} {tfer : LibusbTransfer} {r : Int} (counted : Counted q s)
    (step : Step P q s e s') (submits : .submit origin t tfer r ∈ made P s e) : s.flight t = .idle := by
  cases step with
  | submitOk i at_loop | submitFail i _ at_loop =>
    simp only [made, at_loop, List.mem_singleton, Action.submit.injEq] at submits
    obtain ⟨_, rfl, _⟩ := submits
    by_contra flying
    cases (counted.submitting at_loop).next.symm.trans (counted.flying t flying)
  | proceedResume u _ _ entered exit | proceedFail u _ _ _ entered exit => simp [made, entered, exit] at submits
  | resubmitOk u _ _ _ entered exit | resubmitFail u _ _ _ _ entered _ exit =>
    simp only [made, entered, exit, List.mem_singleton, Action.submit.injEq] at submits
    obtain ⟨_, rfl, _⟩ := submits
    exact (counted.entered entered).1
  | _ => simp [made] at submits

end

/-! ### One step -/

section

variable {A : Adapter σ} {tfers : Nat → LibusbTransfer} {S S' : Session σ} {c : Call σ} {f : ι} {e : Event ι}
  {es : List (Event ι)}

/-- What the awaitable of every call is. -/
structure Suits (A : Adapter σ) : Prop where
  regular : ∀ f q, Regular (A.awaitable f q)
  total : ∀ f q, (A.awaitable f q).total (A.awaitable f q).start = 0
  ready : ∀ f q, (A.awaitable f q).ready (A.awaitable f q).start = true → q.sizes = []

structure Sound (A : Adapter σ) (tfers : Nat → LibusbTransfer) (c : Call σ) : Prop where
  runs : Runs A c
  prefilled : ∀ t, (c.request.prefilled t).type = (tfers t).type
  types : ∀ t, (c.state.tfers t).type = (tfers t).type
  declining : c.stopped = true → Declining (c.awaitable A) c.state

structure Kept (A : Adapter σ) (tfers : Nat → LibusbTransfer) (S : Session σ) : Prop where
  returned : ∀ c ∈ S.returned, Sound A tfers c ∧ Over c.request c.state
  current : ∀ c, S.current = some c → Sound A tfers c
  rest : S.current = none → (∀ t, S.flight t = .idle) ∧ ∀ t, (S.tfers t).type = (tfers t).type

theorem Runs.counted (runs : Runs A c) : Counted c.request c.state := by
  obtain ⟨_, run⟩ := runs
  exact counted_run run

theorem Sound.within {s : State (σ c.function)} {e : Transfer.Event} (suits : Suits A) (sound : Sound A tfers c)
    (step : (Transfer.machine (c.awaitable A) c.request).step c.state e = some s) :
    Sound A tfers { c with state := s } := by
  obtain ⟨runs, prefilled, types, declining⟩ := sound
  have step' := step_cases step
  have counted := runs.counted
  obtain ⟨es, run⟩ := runs
  refine ⟨⟨es ++ [e], Machine.run_concat.mpr ⟨c.state, run, step⟩⟩, prefilled, fun t => ?_, fun stopped => ?_⟩
  · exact (type_step (suits.regular _ c.request) step' t).trans (types t)
  · exact declining_step counted (declining stopped) step'

theorem sound_call {buffers : Buffers} (still : ∀ t, S.flight t = .idle)
    (types : ∀ t, (S.tfers t).type = (tfers t).type) : Sound A tfers (call A S f buffers) := by
  have fresh : S.flight = fun _ => .idle := funext still
  unfold call
  rw [fresh]
  cases requested : S.stopRequested with
  | false => exact ⟨⟨[], rfl⟩, types, types, by simp⟩
  | true =>
    obtain ⟨es, run⟩ := stopped_run (P := A.awaitable f (A.request S buffers)) (q := A.request S buffers)
      (initial (A.awaitable f (A.request S buffers)) (A.request S buffers)) rfl
    refine ⟨⟨es, run⟩, types, fun t => ?_, fun _ => ?_⟩
    · have same := cancelLoop_tfers (List.range' (A.request S buffers).view.begin (A.request S buffers).used)
        (initial (A.awaitable f (A.request S buffers)) (A.request S buffers))
      exact (congrArg (fun tfers => (tfers t).type) same).trans (types t)
    · exact declining_stopped (A.awaitable f (A.request S buffers)) (A.request S buffers) _

theorem kept_step (suits : Suits A) (kept : Kept A tfers S) (h : (machine A).step S e = some S') : Kept A tfers S' := by
  obtain ⟨returned, current, rest⟩ := kept
  have inside : ∀ {stopRequested c e}, S.current = some c →
      within A { S with stopRequested } c e = some S' → Kept A tfers S' := by
    intro stopRequested c e now h
    obtain ⟨s, step, rfl⟩ := Option.map_eq_some_iff.mp h
    refine ⟨returned, fun c' same => ?_, by simp⟩
    exact Option.some.inj same ▸ (current c now).within suits step
  change step A S e = some S' at h
  cases e with
  | call f buffers =>
    simp only [step, Option.ite_none_right_eq_some, Bool.and_eq_true, Option.isNone_iff_eq_none, Option.some.injEq] at h
    obtain ⟨⟨free, _⟩, rfl⟩ := h
    obtain ⟨still, types⟩ := rest free
    refine ⟨returned, fun c same => ?_, by simp⟩
    exact Option.some.inj same ▸ sound_call still types
  | within e =>
    simp only [step] at h
    split at h
    case h_1 c now =>
      rw [Option.ite_none_left_eq_some] at h
      exact inside now h.2
    case h_2 => cases h
  | requestStop =>
    simp only [step, Option.ite_none_left_eq_some] at h
    obtain ⟨_, h⟩ := h
    split at h
    case h_1 c now => exact inside now h
    case h_2 => exact Option.some.inj h ▸ ⟨returned, current, rest⟩
  | finish =>
    simp only [step] at h
    split at h
    case h_1 c now =>
      rw [Option.ite_none_right_eq_some] at h
      obtain ⟨done, h⟩ := h
      obtain rfl := Option.some.inj h
      have sound := current c now
      have ended : Over c.request c.state := by
        obtain ⟨es, run⟩ := sound.runs
        obtain ⟨⟨ec, n⟩, resumed⟩ := Option.isSome_iff_exists.mp (Bool.and_eq_true_iff.mp done).1
        exact (resumed_with run resumed).2.2
      refine ⟨fun c' member => ?_, by simp, fun _ => ⟨ended.still, sound.types⟩⟩
      rcases List.mem_append.mp member with earlier | last
      · exact returned c' earlier
      · exact List.mem_singleton.mp last ▸ ⟨sound, ended⟩
    case h_2 => cases h

theorem Kept.separate (suits : Suits A) (kept : Kept A tfers S) : Separate A tfers S := by
  obtain ⟨returned, current, rest⟩ := kept
  have sound : ∀ c ∈ S.calls, Sound A tfers c := by
    intro c member
    rcases List.mem_append.mp member with earlier | last
    · exact (returned c earlier).1
    · exact current c (Option.mem_toList.mp last)
  refine ⟨fun c member => (sound c member).runs, fun c member => (returned c member).2, fun free => (rest free).1,
    fun c member => (sound c member).prefilled, fun c e s origin t tfer r now step submits => ?_,
    fun c member stopped => ?_⟩
  · exact made_idle (current c now).runs.counted (step_cases step) submits
  · have declining := (sound c member).declining stopped
    refine ⟨declining.submissions, fun ec n resumed => ?_⟩
    obtain ⟨total, reason⟩ := declining.result ec n resumed
    exact ⟨total.trans (suits.total _ _), reason.imp_right (And.imp_left (suits.ready _ _))⟩

theorem separate_run (suits : Suits A) (h : (machine A).run { tfers } es = some S) : Separate A tfers S := by
  have kept : Kept A tfers S := Machine.run_invariant (fun kept step => kept_step suits kept step)
    ⟨by simp, by simp, fun _ => ⟨fun _ => rfl, fun _ => rfl⟩⟩ h
  exact kept.separate suits

theorem sizes_of_ready {q : Request} (ready : decide (q.sizes.length ≤ 0) = true) : q.sizes = [] :=
  List.eq_nil_of_length_eq_zero (Nat.le_zero.mp (of_decide_eq_true ready))

theorem partialIoBase_suits (n : Nat) : Suits (partialIoBase n) :=
  ⟨fun _ => sequenceAwaitable_regular, fun _ q => (sequenceAwaitable_counts q).start, fun _ _ => sizes_of_ready⟩

theorem completeIoBase_suits (n limit : Nat) : Suits (completeIoBase n limit) where
  regular
    | .submit => sequenceAwaitable_regular
    | .completeSubmit => fun q => completeSequenceAwaitable_regular q limit
  total
    | .submit => fun q => (sequenceAwaitable_counts q).start
    | .completeSubmit => fun q => (completeSequenceAwaitable_counts q limit).start
  ready
    | .submit | .completeSubmit => fun _ => sizes_of_ready

/-- However many calls an adapter makes, each runs as if it were the only one, none is handed a transfer in flight, and
one that begins after a stop request submits nothing. -/
theorem calls_are_separate (n limit : Nat) (tfers : Nat → LibusbTransfer) :
    (∀ es S, (machine (partialIoBase n)).run { tfers } es = some S → Separate (partialIoBase n) tfers S) ∧
    (∀ es S, (machine (completeIoBase n limit)).run { tfers } es = some S →
      Separate (completeIoBase n limit) tfers S) :=
  ⟨fun _ _ => separate_run (partialIoBase_suits n), fun _ _ => separate_run (completeIoBase_suits n limit)⟩

theorem four_lt : 4 < 2 ^ 64 := by decide

def fourBytes : Buffers := .single 4 four_lt

/-- One call to its end, a stop request, and a call of another function. -/
def stoppedBetween (f f' : ι) : List (Event ι) :=
  .call f fourBytes :: ((oneCallback ++ [Transfer.Event.resume]).map .within ++
    [.finish, .requestStop, .call f' fourBytes, .within .suspend, .finish])

theorem calls_are_separate_stopped_between :
    (∃ S, (machine (partialIoBase 1)).run { tfers := oneBulk.prefilled } (stoppedBetween () ()) = some S ∧
      S.returned.length = 2 ∧ Separate (partialIoBase 1) oneBulk.prefilled S) ∧
    (∃ S, (machine (completeIoBase 1 4)).run { tfers := oneBulk.prefilled } (stoppedBetween .completeSubmit .submit) =
      some S ∧ S.returned.length = 2 ∧ Separate (completeIoBase 1 4) oneBulk.prefilled S) :=
  have separate := calls_are_separate 1 4 oneBulk.prefilled
  ⟨⟨_, rfl, rfl, separate.1 (stoppedBetween () ()) _ rfl⟩,
    ⟨_, rfl, rfl, separate.2 (stoppedBetween .completeSubmit .submit) _ rfl⟩⟩

end

end Adapter

end CoUsb.Transfer

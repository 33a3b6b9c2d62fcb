import Mathlib.Data.Finset.Card
import CoUsb.ErrorCode
import CoUsb.Lib.Machine
import CoUsb.Transfer.SequenceView

/-!
# A transfer operation and its environment

`submit` and `complete_submit` run the same protocol with libusb, their executor and
their stop token; only the buffers a transfer is given next differ. `Pump` is that
difference, `step` is one atomic step of any party.
-/

namespace CoUsb.Transfer

/-- The arguments of one `submit` or `complete_submit` call: the sizes of the buffers and
the prefilled transfers of the adapter. -/
structure Request where
  sizes : List Nat
  transfers : Nat
  prefilled : Nat → LibusbTransfer
  sizes_lt : ∀ n ∈ sizes, n < 2 ^ 64
  length_lt : sizes.length < 2 ^ 64

structure Buffer where
  data : Pointer
  size : Nat

namespace Request

def view (q : Request) : SequenceView := .ofSequence q.transfers

def used (q : Request) : Nat := min q.sizes.length q.view.size

/-- The buffer an iterator at position `j` refers to. -/
def buffer (q : Request) (j : Nat) : Buffer := ⟨⟨j, 0⟩, q.sizes.getD j 0⟩

/-- The end of the two loops of `await_suspend`. -/
def last (q : Request) : Nat := q.view.end + q.used

def positions (q : Request) : List Nat := List.range' q.view.begin (q.last - q.view.begin)

end Request

inductive Submitter where
  | loop | callback
  deriving DecidableEq, Repr

/-- The calls between the operation, libusb and the executor, and the buffers handed out. -/
inductive Action where
  | take (t j : Nat)
  | submit (origin : Submitter) (t : Nat) (tfer : LibusbTransfer) (r : Int)
  | callback (t : Nat) (tfer : LibusbTransfer) (seen : ErrorCode)
  | cancel (t : Nat)
  | post
  deriving DecidableEq, Repr

/-- Where the suspending thread is. -/
inductive Suspend where
  | start
  | submitting (i : Nat)
  /-- The submission of `i` returned `r`, which is not stored yet. -/
  | failed (i : Nat) (r : Int)
  | returnedNoop
  | returnedHandle
  | notSuspended
  deriving DecidableEq, Repr

/-- Where the running `transfer_callback` is. -/
inductive Callback where
  | idle
  /-- It found no error stored. -/
  | entered (t : Nat)
  /-- It is about to store an error. -/
  | failing (t : Nat) (ec : ErrorCode)
  deriving DecidableEq, Repr

/-- Where the stop callback's cancel loop is. -/
inductive Stop where
  | idle | cancelling (i : Nat) | finished
  deriving DecidableEq, Repr

/-- A transfer between its submission and its callback. -/
inductive Flight where
  | idle | inFlight (cancelled : Bool) | completed
  deriving DecidableEq, Repr

structure State (σ : Type) where
  suspend : Suspend := .start
  callback : Callback := .idle
  stop : Stop := .idle
  ec : ErrorCode := {}
  inFlight : Nat := 0
  /-- What the awaitable keeps of its own. -/
  pump : σ
  tfers : Nat → LibusbTransfer
  flight : Nat → Flight := fun _ => .idle
  posted : Nat := 0
  resumed : Option (ErrorCode × Nat) := none
  log : List Action := []

/-- How `transfer_callback` leaves its own part. -/
inductive Next where
  | resume
  | fail (ec : ErrorCode)
  /-- It submits the transfer again, `fresh` when for a further buffer. -/
  | submit (fresh : Bool) (tfer : LibusbTransfer)
  deriving DecidableEq, Repr

structure Pump (σ : Type) where
  start : σ
  /-- `await_ready` -/
  ready : σ → Bool
  /-- One round of the first loop of `await_suspend`. -/
  fill : σ → Nat → LibusbTransfer → σ × LibusbTransfer
  /-- `transfer_callback` between its test of the stored error and its exit. -/
  process : σ → Nat → LibusbTransfer → σ × Next
  /-- The count `await_resume` returns. -/
  total : σ → Nat

inductive Event where
  | suspend
  /-- The submission loop's next `libusb_submit_transfer` returns `r`. -/
  | submit (r : Int)
  | recordFailure
  | leaveLoop
  | complete (t : Nat) (c : Completion)
  | callback (t : Nat)
  /-- The callback reaches its exit; a `libusb_submit_transfer` on the way returns `r`. -/
  | proceed (r : Int)
  | storeFailure
  | requestStop
  | cancel
  | finishStop
  | resume
  deriving DecidableEq, Repr

variable {σ : Type}

def resumeOnZero (s : State σ) : State σ :=
  if s.inFlight = 0 then { s with posted := s.posted + 1, log := s.log ++ [.post] } else s

def fillLoop (P : Pump σ) : List Nat → State σ → State σ
  | [], s => s
  | t :: ts, s =>
    let (pump, tfer) := P.fill s.pump t (s.tfers t)
    fillLoop P ts
      { s with
        pump
        tfers := Function.update s.tfers t tfer
        log := s.log ++ [.take t tfer.buffer.buffer] }

/-- `await_ready`, then `await_suspend` up to its submission loop. -/
def awaitSuspend (P : Pump σ) (q : Request) (s : State σ) : State σ :=
  if P.ready s.pump then
    { s with suspend := .notSuspended, resumed := some (s.ec, P.total s.pump) }
  else if s.stop ≠ .idle then
    let ec := makeTransferStatus TransferStatus.cancelled.code
    { s with suspend := .returnedHandle, ec, resumed := some (ec, P.total s.pump) }
  else
    { fillLoop P q.positions s with suspend := .submitting q.view.begin, inFlight := q.used }

def submitNext (s : State σ) (i : Nat) (r : Int) : State σ :=
  let s := { s with log := s.log ++ [Action.submit .loop i (s.tfers i) r] }
  if r = 0 then
    { s with flight := Function.update s.flight i (.inFlight false), suspend := .submitting (i + 1) }
  else { s with suspend := .failed i r }

/-- `transfer_callback` up to its test of the stored error. -/
def enterCallback (s : State σ) (t : Nat) : State σ :=
  let s :=
    { s with
      inFlight := Word.sub 64 s.inFlight 1
      flight := Function.update s.flight t .idle
      log := s.log ++ [.callback t (s.tfers t) s.ec] }
  if s.ec.isError then resumeOnZero s else { s with callback := .entered t }

def proceedCallback (P : Pump σ) (s : State σ) (t : Nat) (r : Int) : State σ :=
  match P.process s.pump t (s.tfers t) with
  | (pump, .resume) => resumeOnZero { s with pump, callback := .idle }
  | (pump, .fail ec) => { s with pump, callback := .failing t ec }
  | (pump, .submit fresh tfer) =>
    let taken := if fresh then [Action.take t tfer.buffer.buffer] else []
    let s :=
      { s with
        pump
        tfers := Function.update s.tfers t tfer
        log := s.log ++ taken ++ [Action.submit .callback t tfer r] }
    if r = 0 then
      { s with
        flight := Function.update s.flight t (.inFlight false)
        inFlight := sizeT (s.inFlight + 1)
        callback := .idle }
    else { s with callback := .failing t (makeUsbErrorCode r) }

/-- `libusb_cancel_transfer` affects only a transfer that is in flight. -/
def Flight.cancel : Flight → Flight
  | .inFlight _ => .inFlight true
  | f => f

def step (P : Pump σ) (q : Request) (s : State σ) : Event → Option (State σ)
  | .suspend => if s.suspend = .start then some (awaitSuspend P q s) else none
  | .submit r => match s.suspend with
    | .submitting i => if i ≠ q.last then some (submitNext s i r) else none
    | _ => none
  | .recordFailure => match s.suspend with
    | .failed _ r => some { s with ec := makeTransferStatus r, suspend := .returnedNoop }
    | _ => none
  | .leaveLoop => if s.suspend = .submitting q.last then some { s with suspend := .returnedNoop } else none
  | .complete t c => match s.flight t with
    | .inFlight _ =>
      if c.fits (s.tfers t) then
        some { s with
          tfers := Function.update s.tfers t ((s.tfers t).finish c)
          flight := Function.update s.flight t .completed }
      else none
    | _ => none
  | .callback t =>
    if s.callback = .idle ∧ s.flight t = .completed then some (enterCallback s t) else none
  | .proceed r => match s.callback with
    | .entered t => some (proceedCallback P s t r)
    | _ => none
  | .storeFailure => match s.callback with
    | .failing _ ec => some (resumeOnZero { s with ec, callback := .idle })
    | _ => none
  | .requestStop =>
    if s.stop = .idle then some { s with stop := .cancelling q.view.begin } else none
  | .cancel => match s.stop with
    | .cancelling i =>
      if i ≠ q.view.begin + q.used then
        some { s with
          flight := Function.update s.flight i (s.flight i).cancel
          stop := .cancelling (i + 1)
          log := s.log ++ [.cancel i] }
      else none
    | _ => none
  | .finishStop =>
    if s.stop = .cancelling (q.view.begin + q.used) then some { s with stop := .finished } else none
  | .resume =>
    if 0 < s.posted ∧ s.resumed = none then some { s with resumed := some (s.ec, P.total s.pump) }
    else none

def machine (P : Pump σ) (q : Request) : Machine (State σ) Event := ⟨step P q⟩

def initial (P : Pump σ) (q : Request) : State σ := { pump := P.start, tfers := q.prefilled }

/-- One buffer of four bytes on one bulk transfer. -/
def oneBulk : Request := ⟨[4], 1, fun _ => { type := .bulk }, by decide, by decide⟩

/-- Two buffers of four bytes on two bulk transfers. -/
def twoBulk : Request := ⟨[4, 4], 2, fun _ => { type := .bulk }, by decide, by decide⟩

/-- The first transfer is called back with all its bytes. -/
def oneCallback : List Event :=
  [.suspend, .submit 0, .leaveLoop, .complete 0 ⟨.completed, 4, []⟩, .callback 0, .proceed 0]

end CoUsb.Transfer

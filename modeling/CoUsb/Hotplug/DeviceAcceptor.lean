import Mathlib.Logic.Function.Basic
import CoUsb.ErrorCode
import CoUsb.Lib.Machine
import CoUsb.Wrapper.DeviceTriplet

/-!
# The device acceptor

`device_acceptor` with any number of `accept` coroutines and of calls of `shutdown`. One
event is one section under `m_mutex`, or one step between two of them; the hotplug callback may
run whenever libusb runs it, during `listen` already.
-/

namespace CoUsb.Hotplug

/-- Where the coroutine of an `accept` stands. -/
inductive Phase where
  | absent
  /-- `stop_cb` is constructed. -/
  | started
  /-- `await_ready` returned false. -/
  | unready
  /-- `await_suspend` has read the stop token. -/
  | tested (stopRequested : Bool)
  /-- `await_ready` returned true, or `await_suspend` returned `h`. -/
  | direct
  | suspended
  /-- `await_resume` has returned, `stop_cb` is still there. -/
  | resumed
  | finished
  deriving DecidableEq, Repr

/-- One `accept` with its `op_res` and `res`. -/
structure Accept where
  phase : Phase := .absent
  /-- Stop was requested on its token. -/
  requested : Bool := false
  /-- `stop_fn` has run. -/
  stopped : Bool := false
  /-- `*res` was assigned. -/
  registered : Bool := false
  dev : Option Nat := none
  ec : ErrorCode := {}
  result : Option (ErrorCode × Option Nat) := none
  /-- It went on without a post. -/
  direct : Bool := false
  posts : Nat := 0

/-- Whether `stop_cb` exists. -/
def Accept.hasCallback (acc : Accept) : Bool :=
  match acc.phase with
  | .absent | .finished => false
  | _ => true

/-- One call of `shutdown`, from its first section on. -/
inductive Shutdown where
  | exchanged (handle : Nat)
  | deregistered
  /-- The loop is at index `i` and has read `res` there; `edits` tells which contents its iterators belong to. -/
  | unlocked (i res edits : Nat)
  | posted (i edits : Nat)
  | returned
  deriving DecidableEq, Repr

/-- `dev_info_t`; a device is named by its attachment. -/
structure DevInfo where
  triplet : DeviceTriplet
  dev : Nat
  deriving DecidableEq, Repr

structure State where
  accepts : Nat → Accept := fun _ => {}
  mResumptions : List Nat := []
  /-- How often `m_resumptions` was changed; every change invalidates the iterators into it. -/
  edits : Nat := 0
  mArrivedDevices : List DevInfo := []
  mFilter : DeviceTriplet := {}
  mHandle : Nat := 0
  shutdowns : List Shutdown := []
  /-- A loop of `shutdown` went on with iterators that are no longer valid, or a frame that is gone was written to. -/
  undefined : Bool := false
  /-- What the last `bind`, `listen` or `close` returned. -/
  returned : ErrorCode := {}
  /-- The attachments libusb has reported, and those it has reported to be over. -/
  devices : List DeviceDescriptor := []
  gone : List Nat := []
  /-- The callbacks registered with libusb, with their filters, and the handles deregistered. -/
  callbacks : List (Nat × DeviceTriplet) := []
  deregistrations : List Nat := []
  nextHandle : Nat := 1
  /-- The accepts in the order they were registered. -/
  queued : List Nat := []

inductive Event where
  | accept (a : Nat)
  | requestStop (a : Nat)
  | stopFn (a : Nat)
  | awaitReady (a : Nat)
  | stopTest (a : Nat)
  | awaitSuspend (a : Nat)
  | awaitResume (a : Nat)
  | finish (a : Nat)
  | arrived (desc : DeviceDescriptor)
  | left (dev : Nat)
  /-- The overload that reports through `ec`. -/
  | bindEc (triplet : DeviceTriplet)
  | bind (triplet : DeviceTriplet)
  | listen (r : Int)
  | close
  | shutdown
  | deregister (k : Nat)
  | walk (k : Nat)
  | post (k : Nat)
  | relock (k : Nat)
  deriving DecidableEq, Repr

namespace State

def onAccept (s : State) (a : Nat) (f : Accept → Accept) : State :=
  { s with accepts := Function.update s.accepts a (f (s.accepts a)) }

/-- The hotplug callback or `shutdown` writes to the frame of accept `a`, which is gone once the coroutine has
finished. -/
def onFrame (s : State) (a : Nat) (f : Accept → Accept) : State :=
  { s.onAccept a f with undefined := s.undefined || decide ((s.accepts a).phase = .finished) }

/-- `m_resumptions` gets the contents `waiting`. -/
def edit (s : State) (waiting : List Nat) : State :=
  { s with mResumptions := waiting, edits := s.edits + 1 }

def onShutdown (s : State) (k : Nat) (c : Shutdown) : State := { s with shutdowns := s.shutdowns.set k c }

end State

variable (s : State)

/-! ### `accept` -/

/-- `executor.post(res->cont)` -/
def Accept.post (acc : Accept) : Accept := { acc with posts := acc.posts + 1 }

def stopFn (a : Nat) : State :=
  let s := s.onAccept a fun acc => { acc with stopped := true }
  if (s.accepts a).registered then
    let s := s.onAccept a fun acc => { acc with ec := makeErrorCode .operationCanceled }.post
    if a ∈ s.mResumptions then s.edit (s.mResumptions.erase a) else s
  else s

/-- `accept` up to its `co_await`; a stop request that is already there runs `stop_fn` at once. -/
def accept (a : Nat) : State :=
  let s := s.onAccept a fun acc => { phase := .started, requested := acc.requested }
  if (s.accepts a).requested then stopFn s a else s

/-- The accept `a` takes the device that arrived last. -/
def takeDevice (a : Nat) (info : DevInfo) : State :=
  { s.onAccept a fun acc => { acc with phase := .direct, direct := true, dev := some info.dev } with
    mArrivedDevices := s.mArrivedDevices.dropLast }

def awaitReady (a : Nat) : State :=
  match s.mArrivedDevices.getLast? with
  | some info => takeDevice s a info
  | none => s.onAccept a fun acc => { acc with phase := .unready }

/-- The test at the start of `await_suspend`. -/
def stopTest (a : Nat) : State := s.onAccept a fun acc => { acc with phase := .tested acc.requested }

/-- `await_suspend` from its lock on. -/
def awaitSuspend (a : Nat) (stopRequested : Bool) : State :=
  if stopRequested then
    s.onAccept a fun acc =>
      { acc with phase := .direct, direct := true, ec := makeErrorCode .operationCanceled }
  else
    match s.mArrivedDevices.getLast? with
    | some info => takeDevice s a info
    | none =>
      let s := s.onAccept a fun acc => { acc with phase := .suspended, registered := true }
      { s.edit (s.mResumptions ++ [a]) with queued := s.queued ++ [a] }

def awaitResume (a : Nat) : State :=
  s.onAccept a fun acc =>
    { acc with
      phase := .resumed
      result := some (if acc.ec.isError then (acc.ec, none) else ({}, acc.dev)) }

/-! ### The hotplug callback -/

def arrived (desc : DeviceDescriptor) : State :=
  let dev := s.devices.length
  let s := { s with devices := s.devices ++ [desc] }
  match s.mResumptions with
  | [] => { s with mArrivedDevices := s.mArrivedDevices ++ [⟨tripletFromDescriptor desc, dev⟩] }
  | r :: rest => (s.onFrame r fun acc => { acc with dev := some dev }.post).edit rest

def left (dev : Nat) (desc : DeviceDescriptor) : State :=
  let triplet := tripletFromDescriptor desc
  { s with
    gone := s.gone ++ [dev]
    mArrivedDevices := s.mArrivedDevices.eraseP fun info => wildcardTripletComparator info.triplet triplet }

/-! ### Registration -/

def bindEc (triplet : DeviceTriplet) : State := { s with mFilter := triplet, returned := {} }

def bind (triplet : DeviceTriplet) : State :=
  if s.mHandle ≠ 0 then { s with returned := makeErrorCode .operationInProgress }
  else { s with mFilter := triplet, returned := {} }

/-- `r` is what `libusb_hotplug_register_callback` returns. -/
def listen (r : Int) : State :=
  if s.mHandle ≠ 0 then { s with returned := makeErrorCode .operationInProgress }
  else if r ≠ 0 then { s with returned := makeUsbErrorCode r }
  else
    { s with
      callbacks := s.callbacks ++ [(s.nextHandle, s.mFilter)]
      mHandle := s.nextHandle
      nextHandle := s.nextHandle + 1
      returned := {} }

/-- `libusb_hotplug_deregister_callback` -/
def deregisterCallback (handle : Nat) : State :=
  { s with
    callbacks := s.callbacks.filter fun c => c.1 != handle
    deregistrations := s.deregistrations ++ [handle] }

def close : State :=
  if s.mHandle = 0 then { s with returned := makeErrorCode .invalidArgument }
  else { deregisterCallback s s.mHandle with returned := {} }

/-! ### `shutdown` -/

/-- Its first section. -/
def shutdown : State :=
  { s with
    mHandle := 0
    shutdowns := s.shutdowns ++ [if s.mHandle = 0 then .returned else .exchanged s.mHandle] }

/-- The loop of call `k` stands at index `i`, with the lock held: it gives the lock up for the element
there, or the call clears both lists and returns. -/
def visit (k i : Nat) : State :=
  match s.mResumptions[i]? with
  | some res => s.onShutdown k (.unlocked i res s.edits)
  | none => { (s.edit []).onShutdown k .returned with mArrivedDevices := [] }

def postCanceled (k i res edits : Nat) : State :=
  (s.onFrame res fun acc => { acc with ec := makeErrorCode .operationCanceled }.post).onShutdown k (.posted i edits)

/-- The lock is taken again and the loop goes on to the next element. -/
def relock (k i edits : Nat) : State :=
  if edits = s.edits then visit s k (i + 1) else { s with undefined := true }

/-! ### The machine -/

def next (s : State) : Event → Option State
  | .accept a => if (s.accepts a).phase = .absent then some (accept s a) else none
  | .requestStop a => some (s.onAccept a fun acc => { acc with requested := true })
  | .stopFn a =>
    let acc := s.accepts a
    if acc.requested && acc.hasCallback && !acc.stopped then some (stopFn s a) else none
  | .awaitReady a => if (s.accepts a).phase = .started then some (awaitReady s a) else none
  | .stopTest a => if (s.accepts a).phase = .unready then some (stopTest s a) else none
  | .awaitSuspend a =>
    match (s.accepts a).phase with
    | .tested stopRequested => some (awaitSuspend s a stopRequested)
    | _ => none
  | .awaitResume a =>
    match (s.accepts a).phase with
    | .direct => some (awaitResume s a)
    | .suspended => if 0 < (s.accepts a).posts then some (awaitResume s a) else none
    | _ => none
  | .finish a =>
    if (s.accepts a).phase = .resumed then some (s.onAccept a fun acc => { acc with phase := .finished })
    else none
  | .arrived desc => some (arrived s desc)
  | .left dev =>
    match s.devices[dev]? with
    | some desc => if dev ∈ s.gone then none else some (left s dev desc)
    | none => none
  | .bindEc triplet => some (bindEc s triplet)
  | .bind triplet => some (bind s triplet)
  | .listen r => some (listen s r)
  | .close => some (close s)
  | .shutdown => some (shutdown s)
  | .deregister k =>
    match s.shutdowns[k]? with
    | some (.exchanged handle) => some ((deregisterCallback s handle).onShutdown k .deregistered)
    | _ => none
  | .walk k => if s.shutdowns[k]? = some .deregistered then some (visit s k 0) else none
  | .post k =>
    match s.shutdowns[k]? with
    | some (.unlocked i res edits) => some (postCanceled s k i res edits)
    | _ => none
  | .relock k =>
    match s.shutdowns[k]? with
    | some (.posted i edits) => some (relock s k i edits)
    | _ => none

/-- Nothing is known of a run once its behaviour is undefined. -/
def step (s : State) (e : Event) : Option State := if s.undefined then none else next s e

def machine : Machine State Event := ⟨step⟩

end CoUsb.Hotplug

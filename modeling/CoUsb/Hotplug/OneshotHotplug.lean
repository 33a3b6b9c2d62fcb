import CoUsb.ErrorCode
import CoUsb.Lib.Machine

/-!
# One-shot hotplug

`oneshot_hotplug` with its stop callback, the `hotplug_awaitable` it waits on and the callback
registered with libusb. libusb invokes the callback until it returns 1 or is deregistered, and
writes the handle at the end of the registration.
-/

namespace CoUsb.Hotplug.Oneshot

inductive HotplugEvent where
  | arrived | left
  deriving DecidableEq, Repr

/-- Where `await_suspend` stands. -/
inductive Suspend where
  | before
  /-- It saw no stop request and has assigned `*res`. -/
  | tested
  /-- libusb has taken the callback, the handle is not written yet. -/
  | registering
  /-- It returned `std::noop_coroutine()`. -/
  | suspended
  /-- It returned `h`. -/
  | direct
  deriving DecidableEq, Repr

/-- Where the stop callback stands. -/
inductive StopCallback where
  | idle
  /-- It found a handle. -/
  | tested
  | deregistered
  | posted
  /-- It found no handle and has returned. -/
  | ignored
  deriving DecidableEq, Repr

/-- The life of `stop_cb`. -/
inductive Lifetime where
  | absent | constructed | destroyed
  deriving DecidableEq, Repr

structure State where
  life : Lifetime := .absent
  requested : Bool := false
  stop : StopCallback := .idle
  suspend : Suspend := .before
  handle : Nat := 0
  /-- libusb may invoke the callback. -/
  active : Bool := false
  /-- The callback has run. -/
  called : Bool := false
  /-- `op_res` -/
  ec : ErrorCode := {}
  event : Option HotplugEvent := none
  dev : Option Nat := none
  posts : Nat := 0
  /-- What `await_resume` has returned. -/
  result : Option (ErrorCode × Option HotplugEvent × Option Nat) := none

inductive Event where
  | begin
  | requestStop
  | stopTest
  /-- The registration, up to the callbacks libusb invokes in it; `r` is what it is going to return. -/
  | register (r : Int)
  | registered (handle : Nat)
  | callback (event : HotplugEvent) (dev : Nat)
  | stopFn
  | deregister
  | stopPost
  | awaitResume
  | finish
  deriving DecidableEq, Repr

variable (s : State)

/-- The stop callback up to its test of the handle. -/
def stopFn : State := { s with stop := if s.handle = 0 then .ignored else .tested }

/-- The coroutine up to its `co_await`; a stop request that is already there runs the callback at once. -/
def begin : State :=
  let s := { s with life := .constructed }
  if s.requested then stopFn s else s

def stopTest : State :=
  if s.requested then { s with ec := makeErrorCode .operationCanceled, suspend := .direct }
  else { s with suspend := .tested }

def register (r : Int) : State :=
  if r ≠ 0 then { s with ec := makeUsbErrorCode r, suspend := .direct }
  else { s with suspend := .registering, active := true }

def registered (handle : Nat) : State := { s with handle, suspend := .suspended }

/-- The hotplug callback, which returns 1. -/
def callback (event : HotplugEvent) (dev : Nat) : State :=
  { s with event := some event, dev := some dev, posts := s.posts + 1, called := true, active := false }

/-- `libusb_hotplug_deregister_callback` in the stop callback. -/
def deregister : State := { s with stop := .deregistered, active := false }

def stopPost : State :=
  { s with ec := makeErrorCode .operationCanceled, posts := s.posts + 1, stop := .posted }

def awaitResume : State :=
  { s with result := some (if s.ec.isError then (s.ec, none, none) else ({}, s.event, s.dev)) }

/-- The coroutine can run: it was not suspended, or its continuation was posted. -/
def State.ready : Bool := s.suspend == .direct || decide (0 < s.posts)

/-- The stop callback is not running, so that `stop_cb` can be destroyed. -/
def State.quiet : Bool := s.stop != .tested && s.stop != .deregistered

def step (s : State) : Event → Option State
  | .begin => if s.life = .absent then some (begin s) else none
  | .requestStop => some { s with requested := true }
  | .stopTest => if s.life = .constructed ∧ s.suspend = .before then some (stopTest s) else none
  | .register r => if s.suspend = .tested then some (register s r) else none
  | .registered handle => if s.suspend = .registering ∧ handle ≠ 0 then some (registered s handle) else none
  | .callback event dev => if s.active then some (callback s event dev) else none
  | .stopFn => if s.life = .constructed ∧ s.requested = true ∧ s.stop = .idle then some (stopFn s) else none
  | .deregister => if s.stop = .tested then some (deregister s) else none
  | .stopPost => if s.stop = .deregistered then some (stopPost s) else none
  | .awaitResume => if s.ready = true ∧ s.result = none then some (awaitResume s) else none
  | .finish =>
    if s.life = .constructed ∧ s.result.isSome = true ∧ s.quiet = true then some { s with life := .destroyed }
    else none

def machine : Machine State Event := ⟨step⟩

end CoUsb.Hotplug.Oneshot

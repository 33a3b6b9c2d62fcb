import CoUsb.Lib.Machine

/-!
# The event loop of a handler that does not count

A started `trivial_event_handler` whose `libusb_handle_events_timeout` calls succeed. It looks at the stop token before
each call and at nothing else; `ref` and `unref` do nothing.
-/

namespace CoUsb.Ev.TrivialEventHandler

inductive Loop where
  | testing
  /-- `stop.stop_requested()` was false. -/
  | handling
  | left
  deriving DecidableEq, Repr

structure State where
  stopRequested : Bool := false
  loop : Loop := .testing
  deriving DecidableEq, Repr

inductive Event where
  | readStop
  | handleEvents
  | requestStop
  | ref
  | unref
  deriving DecidableEq, Repr

def step (s : State) : Event → Option State
  | .readStop =>
    if s.loop = .testing then some { s with loop := if s.stopRequested then .left else .handling } else none
  | .handleEvents => if s.loop = .handling then some { s with loop := .testing } else none
  | .requestStop => some { s with stopRequested := true }
  | .ref => some s
  | .unref => some s

def machine : Machine State Event := ⟨step⟩

theorem left_step {s s' : State} {e : Event} (left : s.loop = .left) (h : machine.step s e = some s') :
    s'.loop = .left := by
  change step s e = some s' at h
  cases e with
  | readStop | handleEvents => simp [step, left] at h
  | requestStop | ref | unref => exact Option.some.inj h ▸ left

end CoUsb.Ev.TrivialEventHandler

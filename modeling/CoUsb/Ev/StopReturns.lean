import CoUsb.Ev.HandlerService
import CoUsb.Ev.Teardown
import CoUsb.Ev.TrivialEventHandler

/-!
# When `stop()` returns

The service's model takes `stop()` of a handler as one step, which `canStop` allows or not. Here that step is compared
with the loop of the handler's thread, which `stop()` joins.
-/

namespace CoUsb.Ev

variable {h : Handler}

/-! ### A handler that does not count -/

namespace TrivialEventHandler

def Event.own : Event → Bool
  | .readStop | .handleEvents => true
  | _ => false

def Loop.rank : Loop → Nat
  | .handling => 2
  | .testing => 1
  | .left => 0

theorem own_step {l l' : State} {e : Event} (requested : l.stopRequested = true) (own : e.own = true)
    (h : machine.step l e = some l') : l'.stopRequested = true ∧ l'.loop.rank + 1 ≤ l.loop.rank := by
  change step l e = some l' at h
  cases e with
  | readStop =>
    simp only [step, Option.ite_none_right_eq_some, Option.some.injEq] at h
    obtain ⟨at_loop, rfl⟩ := h
    simp [at_loop, requested, Loop.rank]
  | handleEvents =>
    simp only [step, Option.ite_none_right_eq_some, Option.some.injEq] at h
    obtain ⟨at_loop, rfl⟩ := h
    simp [at_loop, requested, Loop.rank]
  | _ => cases own

theorem requested_ranking : Machine.Ranking machine (fun l => l.stopRequested = true) (fun _ e => e.own = true)
    (fun _ => true) fun l => l.loop.rank :=
  ⟨fun requested own step => (own_step requested own step).1, fun requested own step => (own_step requested own step).2⟩

theorem goes_on (l : State) : l.loop = .left ∨ ∃ e u, Event.own e = true ∧ machine.step l e = some u := by
  cases at_loop : l.loop with
  | handling => exact .inr ⟨.handleEvents, _, rfl, if_pos at_loop⟩
  | testing => exact .inr ⟨.readStop, _, rfl, if_pos at_loop⟩
  | left => exact .inl rfl

end TrivialEventHandler

/-- Once stop is requested, the thread of a handler that the service takes to be stoppable ends within three steps
however they are scheduled, and that of any other one never does by itself. -/
theorem stop_returns_iff (joinable : h.joinable = true) :
    (h.type = .refcounted → ∀ l : EventLoop.State, l.stopRequested = true → l.loop ≠ .left → l.mCounter = h.counter →
      if h.canStop then Machine.EndsWithin EventLoop.machine EventLoop.Event.own (fun l => l.loop = .left) 3 l
      else ∀ es l', (∀ e ∈ es, e.own = true) → EventLoop.machine.run l es = some l' → l'.loop ≠ .left) ∧
    (h.type = .trivial → h.canStop = true ∧ ∀ l : TrivialEventHandler.State, l.stopRequested = true →
      Machine.EndsWithin TrivialEventHandler.machine TrivialEventHandler.Event.own (fun l => l.loop = .left) 2 l) := by
  constructor
  · intro type l requested inside same
    have stoppable : h.canStop = true ↔ l.mCounter = 0 := by
      rw [same]
      simp [Handler.canStop, joinable, type]
    split
    case isTrue can =>
      exact EventLoop.released_ranking.endsWithin (fun _ => EventLoop.goes_on _) ⟨requested, stoppable.mp can⟩
        (EventLoop.rank_le _)
    case isFalse cannot =>
      intro es l' all run
      have kept : l'.mCounter ≠ 0 ∧ l'.loop ≠ .left := by
        refine Machine.run_invariant_of_meets (I := fun l => l.mCounter ≠ 0 ∧ l.loop ≠ .left) ?_
          ⟨fun zero => cannot (stoppable.mpr zero), inside⟩ run (Machine.meets_of_forall fun e own _ => all e own)
        rintro l e l' ⟨counter, _⟩ own step
        exact EventLoop.referenced_step own counter (EventLoop.step_cases step)
      exact kept.2
  · intro type
    refine ⟨by simp [Handler.canStop, type], fun l requested => ?_⟩
    refine TrivialEventHandler.requested_ranking.endsWithin (fun _ => TrivialEventHandler.goes_on _)
      requested ?_
    cases l.loop <;> simp [TrivialEventHandler.Loop.rank]

/-- A handler with a reference, the same without, and one that does not count. -/
theorem stop_returns_iff_one_reference :
    (∀ es l, (∀ e ∈ es, EventLoop.Event.own e = true) →
      EventLoop.machine.run { mCounter := 1, stopRequested := true } es = some l → l.loop ≠ .left) ∧
    Machine.EndsWithin EventLoop.machine EventLoop.Event.own (fun l => l.loop = .left) 3 { stopRequested := true } ∧
    Machine.EndsWithin TrivialEventHandler.machine TrivialEventHandler.Event.own (fun l => l.loop = .left) 2
      { stopRequested := true } :=
  ⟨(stop_returns_iff (h := ⟨0, .refcounted, 1, true⟩) rfl).1 rfl { mCounter := 1, stopRequested := true } rfl (by simp)
      rfl,
    (stop_returns_iff (h := ⟨0, .refcounted, 0, true⟩) rfl).1 rfl { stopRequested := true } rfl (by simp) rfl,
    ((stop_returns_iff (h := ⟨0, .trivial, 0, true⟩) rfl).2 rfl).2 { stopRequested := true } rfl⟩

end CoUsb.Ev

import CoUsb.Ev.EventLoop
import CoUsb.Lib.Ranking

/-!
# The end of a counted handler

`~handler_service` and `emplace_handler` of a service that stores a started `refcounted_event_handler`: they request
stop, wait for the thread of the handler, and only then exit the context or destroy the handler. Meanwhile the loop and
the references to the handler go on.
-/

namespace CoUsb.Ev.EventLoop

/-! ### What the thread does by itself -/

/-- The events of the handler's thread. -/
def Event.own : Event → Bool
  | .handleEvents | .readStop | .readCounter => true
  | _ => false

def Loop.rank : Loop → Nat
  | .handling => 3
  | .handled => 2
  | .stopped => 1
  | .left => 0

theorem rank_le (loop : Loop) : loop.rank ≤ 3 := by cases loop <;> decide

/-- Stop was requested and there is no reference. -/
structure Released (l : State) : Prop where
  requested : l.stopRequested = true
  zero : l.mCounter = 0

theorem released_ranking :
    Machine.Ranking machine Released (fun _ e => e.own = true) (fun _ => true) fun l => l.loop.rank := by
  constructor
  · intro l e l' released own step
    cases step_cases step with
    | handleEvents | readStop | readCounter => exact ⟨released.requested, released.zero⟩
    | _ => cases own
  · intro l e l' released own step
    cases step_cases step with
    | handleEvents at_loop | readStop at_loop | readCounter at_loop =>
      simp [readStop, readCounter, at_loop, released.requested, released.zero, Loop.rank]
    | _ => cases own

theorem goes_on (l : State) : l.loop = .left ∨ ∃ e u, Event.own e = true ∧ machine.step l e = some u := by
  cases at_loop : l.loop with
  | handling => exact .inr ⟨.handleEvents, _, rfl, if_pos at_loop⟩
  | handled => exact .inr ⟨.readStop, _, rfl, if_pos at_loop⟩
  | stopped => exact .inr ⟨.readCounter, _, rfl, if_pos at_loop⟩
  | left => exact .inl rfl

/-- A counter that is not zero keeps the thread in its loop. -/
theorem referenced_step {l l' : State} {e : Event} (own : e.own = true) (counter : l.mCounter ≠ 0)
    (step : Step l e l') : l'.mCounter ≠ 0 ∧ l'.loop ≠ .left := by
  cases step with
  | handleEvents => exact ⟨counter, by simp⟩
  | readStop =>
    refine ⟨counter, ?_⟩
    unfold readStop
    split <;> simp
  | readCounter => exact ⟨counter, by simp [readCounter, counter]⟩
  | _ => cases own

end CoUsb.Ev.EventLoop

namespace CoUsb.Ev.Teardown

/-- Where the thread in `shutdown` or `emplace_handler` stands. -/
inductive Phase where
  | serving
  /-- `m_stop.request_stop()` has returned. -/
  | stopping
  /-- `m_handler.stop()` has returned. -/
  | stopped
  /-- `libusb_exit` was called, or the handler destroyed. -/
  | released
  deriving DecidableEq, Repr

structure State where
  loop : EventLoop.State
  phase : Phase := .serving

inductive Event where
  | loop (f : EventLoop.Event)
  | requestStop
  /-- `m_thread.join()` -/
  | join
  | release
  deriving DecidableEq, Repr

def step (s : State) : Event → Option State
  | .loop f => (EventLoop.machine.step s.loop f).map fun loop => { s with loop }
  | .requestStop =>
    if s.phase = .serving then some ⟨{ s.loop with stopRequested := true }, .stopping⟩ else none
  | .join => if s.phase = .stopping ∧ s.loop.loop = .left then some { s with phase := .stopped } else none
  | .release => if s.phase = .stopped then some { s with phase := .released } else none

def machine : Machine State Event := ⟨step⟩

variable {s s' : State} {e : Event}

inductive Step (s : State) : Event → State → Prop where
  | loop {f : EventLoop.Event} {loop : EventLoop.State} (step : EventLoop.machine.step s.loop f = some loop) :
      Step s (.loop f) ⟨loop, s.phase⟩
  | requestStop (serving : s.phase = .serving) :
      Step s .requestStop ⟨{ s.loop with stopRequested := true }, .stopping⟩
  | join (stopping : s.phase = .stopping) (left : s.loop.loop = .left) : Step s .join ⟨s.loop, .stopped⟩
  | release (stopped : s.phase = .stopped) : Step s .release ⟨s.loop, .released⟩

theorem step_cases (h : machine.step s e = some s') : Step s e s' := by
  replace h : step s e = some s' := h
  cases e with
  | loop f =>
    obtain ⟨loop, step, rfl⟩ := Option.map_eq_some_iff.mp h
    exact .loop step
  | requestStop =>
    simp only [step, Option.ite_none_right_eq_some, Option.some.injEq] at h
    obtain ⟨serving, rfl⟩ := h
    exact .requestStop serving
  | join =>
    simp only [step, Option.ite_none_right_eq_some, Option.some.injEq] at h
    obtain ⟨⟨stopping, left⟩, rfl⟩ := h
    exact .join stopping left
  | release =>
    simp only [step, Option.ite_none_right_eq_some, Option.some.injEq] at h
    obtain ⟨stopped, rfl⟩ := h
    exact .release stopped

theorem loop_run {fs : List EventLoop.Event} {l : EventLoop.State} (run : EventLoop.machine.run s.loop fs = some l) :
    machine.run s (fs.map .loop) = some { s with loop := l } := by
  induction fs generalizing s with
  | nil => exact Option.some.inj run ▸ rfl
  | cons f fs ih =>
    obtain ⟨next, first, later⟩ := Machine.run_cons.mp run
    have step : machine.step s (.loop f) = some { s with loop := next } := by
      show (EventLoop.machine.step s.loop f).map (fun loop => ({ s with loop } : State)) = _
      rw [first, Option.map_some]
    exact Machine.run_cons.mpr ⟨_, step, ih (s := { s with loop := next }) later⟩

/-! ### What the phases promise -/

theorem left_stays {l l' : EventLoop.State} {f : EventLoop.Event} (left : l.loop = .left)
    (step : EventLoop.Step l f l') : l'.loop = .left := by
  cases step with
  | handleEvents at_loop | readStop at_loop | readCounter at_loop => cases at_loop.symm.trans left
  | requestStop | construct | assignSelf => exact left
  | copy i r =>
    unfold EventLoop.copy
    split <;> exact left
  | move i r =>
    unfold EventLoop.move
    split <;> exact left
  | assign | destroy => exact (EventLoop.release_loop ..).trans left
  | assigned a b r moves => exact (EventLoop.assigned_frame l a b r moves).1.trans left

theorem requested_stays {l l' : EventLoop.State} {f : EventLoop.Event} (requested : l.stopRequested = true)
    (step : EventLoop.Step l f l') : l'.stopRequested = true := by
  by_cases stop : f = .requestStop
  · subst stop
    cases step
    rfl
  · exact ((EventLoop.step_moves step).2 stop).trans requested

structure Kept (s : State) : Prop where
  counted : EventLoop.Counted s.loop
  requested : s.phase ≠ .serving → s.loop.stopRequested = true
  left : s.phase = .stopped ∨ s.phase = .released → s.loop.loop = .left

theorem kept_step (kept : Kept s) (step : Step s e s') : Kept s' := by
  obtain ⟨counted, requested, left⟩ := kept
  cases step with
  | loop step =>
    have step := EventLoop.step_cases step
    exact ⟨EventLoop.counted_step counted step, fun later => requested_stays (requested later) step,
      fun later => left_stays (left later) step⟩
  | requestStop => exact ⟨⟨counted.counter, counted.bound⟩, fun _ => rfl, by simp⟩
  | join stopping at_left => exact ⟨counted, fun _ => requested (by simp [stopping]), fun _ => at_left⟩
  | release stopped => exact ⟨counted, fun _ => requested (by simp [stopped]), fun _ => left (.inl stopped)⟩

/-- What the loop and the waiting thread do of their own. -/
def Event.own : Event → Bool
  | .loop f => f.own
  | .join | .release => true
  | .requestStop => false

def Phase.rank : Phase → Nat
  | .serving => 3
  | .stopping => 2
  | .stopped => 1
  | .released => 0

/-- Stop was requested, and nothing refers to the handler. -/
structure Ending (s : State) : Prop where
  released : EventLoop.Released s.loop
  requested : s.phase ≠ .serving

theorem ending_ranking : Machine.Ranking machine Ending (fun _ e => e.own = true) (fun _ => true)
    fun s => s.loop.loop.rank + s.phase.rank := by
  constructor
  · intro s e s' ending own step
    cases step_cases step with
    | loop inner => exact ⟨EventLoop.released_ranking.keep ending.released own inner, ending.requested⟩
    | join | release => exact ⟨ending.released, by simp⟩
    | requestStop => cases own
  · intro s e s' ending own step
    cases step_cases step with
    | loop inner =>
      have falls := EventLoop.released_ranking.falls ending.released own inner
      simp only at falls ⊢
      omega
    | join phase | release phase => simp [phase, Phase.rank]
    | requestStop => cases own

theorem goes_on (ending : Ending s) :
    s.phase = .released ∨ ∃ e u, Event.own e = true ∧ machine.step s e = some u := by
  cases phase : s.phase with
  | serving => exact absurd phase ending.requested
  | released => exact .inl rfl
  | stopped => exact .inr ⟨.release, _, rfl, if_pos phase⟩
  | stopping =>
    rcases EventLoop.goes_on s.loop with left | ⟨f, l, own, step⟩
    · exact .inr ⟨.join, _, rfl, if_pos ⟨phase, left⟩⟩
    · exact .inr ⟨.loop f, { s with loop := l }, own, Option.map_eq_some_iff.mpr ⟨l, step, rfl⟩⟩

theorem ends_within (kept : Kept s) (stopping : s.phase = .stopping) (unheld : s.loop.held = 0) :
    Machine.EndsWithin machine Event.own (fun t => t.phase = .released) 5 s := by
  have requested := kept.requested (by simp [stopping])
  refine ending_ranking.endsWithin goes_on ⟨⟨requested, kept.counted.counter.trans unheld⟩, by simp [stopping]⟩ ?_
  have loop := EventLoop.rank_le s.loop.loop
  simp only [stopping, Phase.rank]
  omega

end CoUsb.Ev.Teardown

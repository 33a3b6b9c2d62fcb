import CoUsb.Ev.Teardown
import CoUsb.Transfer.Delivery

/-!
# An operation and the end of its service

`~handler_service` exits the context behind `m_handler.stop()`, and `emplace_handler` destroys the old handler behind
it. With a handler that counts references both wait for the operations whose adapters hold one.
-/

namespace CoUsb.Transfer

variable {σ : Type} {P : Pump σ} {q : Request} {k : Nat}

/-- The thread that ends the service is not held up by anything but the handler. -/
def releases (k : Nat) (s : State σ) : Ev.Teardown.Event → Bool
  | .loop f => leaves k s f
  | .requestStop | .join | .release => true

def shutdown (P : Pump σ) (q : Request) (k : Nat) : Service (State σ) Event Ev.Teardown.State Ev.Teardown.Event where
  client := machine P q
  server := Ev.Teardown.machine
  served := Event.inHandler
  attends x := x.loop.loop == .handling
  allows := releases k

/-- The operation holds the loop up, and the thread that waits for the loop. -/
structure Awaited (P : Pump σ) (q : Request) (k : Nat) (x : State σ × Ev.Teardown.State) : Prop where
  attended : Attended P q k (x.1, x.2.loop)
  kept : Ev.Teardown.Kept x.2

theorem awaited_step {x y : State σ × Ev.Teardown.State} {g : Event ⊕ Ev.Teardown.Event} (awaited : Awaited P q k x)
    (h : (shutdown P q k).machine.step x g = some y) : Awaited P q k y := by
  obtain ⟨s, x⟩ := x
  obtain ⟨t, y⟩ := y
  obtain ⟨attended, kept⟩ := awaited
  cases g with
  | inl e =>
    obtain ⟨step, rfl, handling⟩ := Service.step_client h
    have here : (delivery P q k).machine.step (s, y.loop) (.inl e) = some (t, y.loop) :=
      Service.client_step step handling
    exact ⟨attended_step attended here, kept⟩
  | inr f =>
    obtain ⟨step, rfl, allowed⟩ := Service.step_server h
    have step := Ev.Teardown.step_cases step
    refine ⟨?_, Ev.Teardown.kept_step kept step⟩
    have follows : ∀ {f l}, Ev.EventLoop.machine.step x.loop f = some l → leaves k t f = true →
        Attended P q k (t, l) := by
      intro f l step allowed
      have alone : Ev.EventLoop.machine.run x.loop [f] = some l := Machine.run_cons.mpr ⟨_, step, rfl⟩
      have run : (delivery P q k).machine.run (t, x.loop) ([f].map .inr) = some (t, l) :=
        Service.server_run alone (by simpa [delivery] using allowed)
      exact Machine.run_invariant (fun attended step => attended_step attended step) attended run
    cases step with
    | loop inner => exact follows inner allowed
    | requestStop => exact follows (f := .requestStop) rfl rfl
    | join | release => exact attended

theorem awaited_round {s s' : State σ} {e : Event} {x : Ev.Teardown.State} (awaited : Awaited P q k (s, x))
    (step : (machine P q).step s e = some s') (served : e.inHandler = true) :
    ∃ fs y, Ev.Teardown.machine.run x fs = some y ∧ (∀ f ∈ fs, releases k s f = true) ∧
      (y.loop.loop == .handling) = true := by
  obtain ⟨fs, l, run, allowed, handling⟩ := attended_round awaited.attended step served
  refine ⟨fs.map .loop, _, Ev.Teardown.loop_run run, fun g member => ?_, handling⟩
  obtain ⟨f, inside, rfl⟩ := List.mem_map.mp member
  exact allowed f inside

/-- However the operation, the loop, the references and the thread that ends the service interleave: `stop()` of the
handler does not return before the coroutine has its result, when it has returned nothing is in flight and nothing will
be submitted, until then the operation can take all its steps, and when the references are gone the loop and the thread
come to an end within five steps, in whatever order they take them. -/
theorem shutdown_waits_for_the_operation (P : Pump σ) (q : Request) (k : Nat) (ls : List Ev.EventLoop.Event)
    (l : Ev.EventLoop.State) (opened : Ev.EventLoop.machine.run {} ls = some l) (holds : Holds k l.refs)
    (inside : l.loop ≠ .left) (gs : List (Event ⊕ Ev.Teardown.Event)) (s : State σ) (x : Ev.Teardown.State)
    (h : (shutdown P q k).machine.run (initial P q, ⟨l, .serving⟩) gs = some (s, x)) :
    (x.phase = .stopped ∨ x.phase = .released → s.resumed ≠ none ∧ Over q s) ∧
    (∀ es t, (machine P q).run s es = some t →
      ∃ hs y, (shutdown P q k).machine.run (s, x) hs = some (t, y) ∧ Service.clientEvents hs = es) ∧
    (s.resumed ≠ none → x.phase = .stopping → x.loop.held = 0 →
      Machine.EndsWithin (shutdown P q k).machine (Sum.elim (fun _ => false) Ev.Teardown.Event.own)
        (fun y => y.1 = s ∧ y.2.phase = .released) 5 (s, x)) := by
  have awaited : Awaited P q k (s, x) := Machine.run_invariant (fun awaited step => awaited_step awaited step)
    ⟨⟨⟨[], rfl⟩, Ev.EventLoop.counted_run opened, fun _ => ⟨holds, inside⟩⟩,
      ⟨Ev.EventLoop.counted_run opened, by simp, by simp⟩⟩ h
  have ended : s.resumed ≠ none → Over q s := by
    intro resumed
    obtain ⟨⟨ec, n⟩, resumed⟩ := Option.ne_none_iff_exists'.mp resumed
    exact (resumed_with (Service.client_run h) resumed).2.2
  refine ⟨fun past => ?_, fun es t run => ?_, fun resumed stopping unheld => ?_⟩
  · have resumed : s.resumed ≠ none := fun pending => (awaited.attended.holds pending).2 (awaited.kept.left past)
    exact ⟨resumed, ended resumed⟩
  · exact Service.run_client awaited_step (fun s x e t awaited step served => awaited_round awaited step served)
      awaited run
  · have free := (ended resumed).free
    have soon := Ev.Teardown.ends_within awaited.kept stopping unheld
    refine Service.endsWithin (v := shutdown P q k) soon fun f own => ?_
    cases f with
    | requestStop | join | release => rfl
    | loop f =>
      cases f with
      | handleEvents => simp [shutdown, releases, leaves, free]
      | readStop | readCounter => rfl
      | _ => cases own

/-- The destructor comes while the transfer of the operation is in flight; the loop tests the token and goes on. -/
def destroyedInFlight : List (Event ⊕ Ev.Teardown.Event) :=
  [.inl .suspend, .inl (.submit 0), .inr .requestStop, .inr (.loop .handleEvents), .inr (.loop .readStop),
    .inr (.loop .readCounter)]

/-- The operation ends, and its adapter is destroyed. -/
def landed : List (Event ⊕ Ev.Teardown.Event) :=
  [.inl .leaveLoop, .inl (.complete 0 ⟨.completed, 4, []⟩), .inl (.callback 0), .inl (.proceed 0), .inl .resume,
    .inr (.loop (.destroy 0))]

theorem shutdown_waits_for_the_operation_destroyed :
    ∃ l s x, Ev.EventLoop.machine.run {} [.construct] = some l ∧
      (shutdown (sequenceAwaitable oneBulk) oneBulk 0).machine.run (initial (sequenceAwaitable oneBulk) oneBulk,
        ⟨l, .serving⟩) (destroyedInFlight ++ landed) = some (s, x) ∧
      Machine.EndsWithin (shutdown (sequenceAwaitable oneBulk) oneBulk 0).machine
        (Sum.elim (fun _ => false) Ev.Teardown.Event.own) (fun y => y.1 = s ∧ y.2.phase = .released) 5 (s, x) := by
  have opened : ∃ l, Ev.EventLoop.machine.run {} [.construct] = some l := ⟨_, rfl⟩
  obtain ⟨l, opened⟩ := opened
  obtain rfl := Option.some.inj opened
  have waits := shutdown_waits_for_the_operation (sequenceAwaitable oneBulk) oneBulk 0 _ _ opened ⟨rfl, by decide⟩
    (by decide) (destroyedInFlight ++ landed) _ _ rfl
  exact ⟨_, _, _, opened, rfl, waits.2.2 (by decide) rfl rfl⟩

end CoUsb.Transfer

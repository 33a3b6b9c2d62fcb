import CoUsb.Ev.EventLoop
import CoUsb.Ev.TrivialEventHandler
import CoUsb.Lib.Service
import CoUsb.Transfer.Resumption

/-!
# An operation and the event loop

`transfer_callback` runs inside `libusb_handle_events_timeout`, on the thread of the event handler. The adapter of the
operation holds a reference to the handler, so a handler that counts references takes every step of the operation
whenever stop is requested; a handler that does not leaves it suspended.
-/

namespace CoUsb.Transfer

variable {σ : Type} {P : Pump σ} {q : Request} {s s' : State σ} {e : Event} {k : Nat}

/-- The steps that are taken inside `libusb_handle_events_timeout`. -/
def Event.inHandler : Event → Bool
  | .callback _ | .proceed _ | .storeFailure => true
  | _ => false

/-- A callback ends before `libusb_handle_events_timeout` returns, and the adapter, whose reference is at `k`, stays
where it is until the coroutine has its result. -/
def leaves (k : Nat) (s : State σ) : Ev.EventLoop.Event → Bool
  | .handleEvents => s.callback == .idle
  | .move i | .destroy i => i != k || s.resumed.isSome
  | .assign a b moves => a != k && !(moves && b == k) || s.resumed.isSome
  | .readStop | .readCounter | .requestStop | .construct | .copy _ | .assigned _ => true

def delivery (P : Pump σ) (q : Request) (k : Nat) : Service (State σ) Event Ev.EventLoop.State Ev.EventLoop.Event where
  client := machine P q
  server := Ev.EventLoop.machine
  served := Event.inHandler
  attends loop := loop.loop == .handling
  allows := leaves k

/-! ### The reference of the adapter -/

section

open Ev.EventLoop (Ref)

variable {refs : List Ref} {i : Nat} {r : Ref}

/-- The reference at `k` is valid, and none is being moved from it. -/
structure Holds (k : Nat) (refs : List Ref) : Prop where
  valid : refs[k]? = some .valid
  still : Ref.assigning k true ∉ refs

theorem Holds.set (holds : Holds k refs) (other : i ≠ k) (quiet : r ≠ Ref.assigning k true) :
    Holds k (refs.set i r) := by
  refine ⟨(List.getElem?_set_ne other).trans holds.valid, fun moved => ?_⟩
  rcases List.mem_or_eq_of_mem_set moved with before | now
  · exact holds.still before
  · exact quiet now.symm

theorem Holds.append (holds : Holds k refs) (quiet : r ≠ Ref.assigning k true) : Holds k (refs ++ [r]) := by
  refine ⟨?_, fun moved => ?_⟩
  · rw [List.getElem?_append_left (List.getElem?_eq_some_iff.mp holds.valid).1]
    exact holds.valid
  · rcases List.mem_append.mp moved with before | now
    · exact holds.still before
    · exact quiet (List.mem_singleton.mp now).symm

theorem Holds.other (holds : Holds k refs) (here : refs[i]? = some r) (invalid : r ≠ .valid) : i ≠ k := by
  rintro rfl
  exact invalid (Option.some.inj (here.symm.trans holds.valid))

theorem Holds.held_pos {l : Ev.EventLoop.State} (holds : Holds k l.refs) : 0 < l.held :=
  List.countP_pos_iff.mpr ⟨.valid, List.mem_of_getElem? holds.valid, rfl⟩

theorem release_refs (l : Ev.EventLoop.State) (i : Nat) (r next : Ref) :
    (Ev.EventLoop.release l i r next).refs = l.refs.set i next := by
  unfold Ev.EventLoop.release
  dsimp only
  split <;> rfl

theorem holds_step {l l' : Ev.EventLoop.State} {f : Ev.EventLoop.Event} (holds : Holds k l.refs)
    (pending : s.resumed = none) (allowed : leaves k s f = true) (step : Ev.EventLoop.Step l f l') :
    Holds k l'.refs := by
  cases step with
  | handleEvents | readStop | readCounter | requestStop | assignSelf => exact holds
  | construct => exact holds.append (by simp)
  | copy i r =>
    unfold Ev.EventLoop.copy
    split
    · exact holds.append (by simp)
    · exact holds.append (by simp)
  | move i r =>
    have other : i ≠ k := by simpa [leaves, pending] using allowed
    unfold Ev.EventLoop.move
    split
    · exact (holds.set other (by simp)).append (by simp)
    · exact holds.append (by simp)
  | assign a b r moves =>
    obtain ⟨other, quiet⟩ : a ≠ k ∧ (moves = false ∨ b ≠ k) := by simpa [leaves, pending] using allowed
    rw [release_refs]
    apply holds.set other
    rintro ⟨⟩
    simp at quiet
  | assigned a b r moves target =>
    have other := holds.other target (by simp)
    unfold Ev.EventLoop.assigned
    split
    · split
      case isTrue moved =>
        have source : b ≠ k := by
          rintro rfl
          exact holds.still (moved ▸ List.mem_of_getElem? target)
        exact (holds.set source (by simp)).set other (by simp)
      case isFalse => exact holds.set other (by simp)
    · exact holds.set other (by simp)
  | destroy i r =>
    have other : i ≠ k := by simpa [leaves, pending] using allowed
    rw [release_refs]
    exact holds.set other (by simp)

end

/-! ### The loop gets round to the operation -/

theorem resumed_step (step : Step P q s e s') (pending : s'.resumed = none) : s.resumed = none := by
  cases step with
  | ready | stopped | resume => cases pending
  | filled | drain | proceedResume | storeFailure => simpa using pending
  | _ => exact pending

/-- The operation has run, and holds the loop up until its coroutine has its result. -/
structure Attended (P : Pump σ) (q : Request) (k : Nat) (x : State σ × Ev.EventLoop.State) : Prop where
  run : ∃ es, (machine P q).run (initial P q) es = some x.1
  counted : Ev.EventLoop.Counted x.2
  holds : x.1.resumed = none → Holds k x.2.refs ∧ x.2.loop ≠ .left

theorem attended_step {x y : State σ × Ev.EventLoop.State} {g : Event ⊕ Ev.EventLoop.Event}
    (attended : Attended P q k x) (h : (delivery P q k).machine.step x g = some y) : Attended P q k y := by
  obtain ⟨s, l⟩ := x
  obtain ⟨t, l'⟩ := y
  obtain ⟨⟨es, run⟩, counted, holds⟩ := attended
  cases g with
  | inl e =>
    obtain ⟨step, rfl, _⟩ := Service.step_client h
    exact ⟨⟨es ++ [e], Machine.run_concat.mpr ⟨s, run, step⟩⟩, counted,
      fun pending => holds (resumed_step (step_cases step) pending)⟩
  | inr f =>
    obtain ⟨step, rfl, allowed⟩ := Service.step_server h
    have step := Ev.EventLoop.step_cases step
    refine ⟨⟨es, run⟩, Ev.EventLoop.counted_step counted step, fun pending => ?_⟩
    obtain ⟨held, inside⟩ := holds pending
    refine ⟨holds_step held pending allowed step, fun left => ?_⟩
    cases (Ev.EventLoop.step_moves step).1 with
    | stays loop => exact inside (loop.symm.trans left)
    | handles loop => rcases loop with loop | loop <;> cases loop.symm.trans left
    | stops loop => cases loop.symm.trans left
    | leaves _ _ zero =>
      have some' := held.held_pos
      have counter := counted.counter
      dsimp only at some' counter zero
      omega

theorem Over.not_served (ended : Over q s) (step : Step P q s e s') : e.inHandler = false := by
  obtain ⟨free, still, _⟩ := ended
  cases step with
  | drain t _ completed | enter t _ completed => cases completed.symm.trans (still t)
  | proceedResume t r pump entered | proceedFail t r pump ec entered | resubmitOk t pump fresh tfer entered
  | resubmitFail t r pump fresh tfer entered => cases entered.symm.trans free
  | storeFailure t ec failing => cases failing.symm.trans free
  | _ => rfl

theorem attended_round {l : Ev.EventLoop.State} (attended : Attended P q k (s, l))
    (step : (machine P q).step s e = some s') (served : e.inHandler = true) :
    ∃ fs l', Ev.EventLoop.machine.run l fs = some l' ∧ (∀ f ∈ fs, leaves k s f = true) ∧
      (l'.loop == .handling) = true := by
  obtain ⟨⟨es, run⟩, counted, holds⟩ := attended
  have pending : s.resumed = none := by
    by_contra resumed
    obtain ⟨⟨ec, n⟩, resumed⟩ := Option.ne_none_iff_exists'.mp resumed
    cases served.symm.trans ((resumed_with run resumed).2.2.not_served (step_cases step))
  obtain ⟨held, inside⟩ := holds pending
  have counter : l.mCounter ≠ 0 := by
    have some' := held.held_pos
    have same := counted.counter
    dsimp only at some' same
    omega
  have back : Ev.EventLoop.readCounter { l with loop := .stopped } = { l with loop := .handling } := by
    simp [Ev.EventLoop.readCounter, counter]
  have again : Ev.EventLoop.machine.step { l with loop := .stopped } .readCounter = some { l with loop := .handling } :=
    congrArg some back
  cases at_loop : l.loop with
  | handling => exact ⟨[], l, rfl, by simp, by simp [at_loop]⟩
  | stopped =>
    have here : { l with loop := .stopped } = l := by rw [← at_loop]
    rw [here] at again
    exact ⟨[.readCounter], _, Machine.run_cons.mpr ⟨_, again, rfl⟩, by simp [leaves], rfl⟩
  | handled =>
    have test : Ev.EventLoop.machine.step l .readStop = some (Ev.EventLoop.readStop l) := if_pos at_loop
    cases requested : l.stopRequested with
    | false =>
      have next : Ev.EventLoop.readStop l = { l with loop := .handling } := by simp [Ev.EventLoop.readStop, requested]
      exact ⟨[.readStop], _, Machine.run_cons.mpr ⟨_, test, rfl⟩, by simp [leaves], by rw [next]; rfl⟩
    | true =>
      have next : Ev.EventLoop.readStop l = { l with loop := .stopped } := by simp [Ev.EventLoop.readStop, requested]
      rw [next] at test
      have later := Machine.run_cons.mpr ⟨_, again, Machine.run_nil⟩
      exact ⟨[.readStop, .readCounter], _, Machine.run_cons.mpr ⟨_, test, later⟩, by simp [leaves], rfl⟩
  | left => exact absurd at_loop inside

/-- However a counted handler's loop, the references to it and the operation interleave, before and after a stop
request: the loop does not leave before the coroutine has its result, and whatever the operation can do from there on it
still does. -/
theorem loop_serves_the_operation (P : Pump σ) (q : Request) (k : Nat) (ls : List Ev.EventLoop.Event)
    (l : Ev.EventLoop.State) (opened : Ev.EventLoop.machine.run {} ls = some l) (holds : Holds k l.refs)
    (inside : l.loop ≠ .left) (gs : List (Event ⊕ Ev.EventLoop.Event)) (s : State σ) (l' : Ev.EventLoop.State)
    (h : (delivery P q k).machine.run (initial P q, l) gs = some (s, l')) :
    (machine P q).run (initial P q) (Service.clientEvents gs) = some s ∧ (s.resumed = none → l'.loop ≠ .left) ∧
    ∀ es t, (machine P q).run s es = some t →
      ∃ hs k', (delivery P q k).machine.run (s, l') hs = some (t, k') ∧ Service.clientEvents hs = es := by
  have attended : Attended P q k (s, l') := Machine.run_invariant (fun attended step => attended_step attended step)
    ⟨⟨[], rfl⟩, Ev.EventLoop.counted_run opened, fun _ => ⟨holds, inside⟩⟩ h
  refine ⟨Service.client_run h, fun pending => (attended.holds pending).2, fun es t run => ?_⟩
  exact Service.run_client attended_step (fun s h e t attended step served => attended_round attended step served)
    attended run

/-- The adapter at the second reference, a stop request while its transfer is in flight, and the loop's next tests. -/
def stoppedInFlight : List (Event ⊕ Ev.EventLoop.Event) :=
  [.inl .suspend, .inl (.submit 0), .inr .requestStop, .inr .handleEvents, .inr .readStop, .inr .readCounter]

/-- What is left of the operation. -/
def landing : List Event := [.leaveLoop, .complete 0 ⟨.completed, 4, []⟩, .callback 0, .proceed 0, .resume]

theorem loop_serves_the_operation_stopped :
    ∃ l s l', Ev.EventLoop.machine.run {} [.construct, .construct] = some l ∧
      (delivery (sequenceAwaitable oneBulk) oneBulk 1).machine.run (initial (sequenceAwaitable oneBulk) oneBulk, l)
        stoppedInFlight = some (s, l') ∧ s.resumed = none ∧ l'.loop ≠ .left ∧
      ∃ hs t k', (delivery (sequenceAwaitable oneBulk) oneBulk 1).machine.run (s, l') hs = some (t, k') ∧
        Service.clientEvents hs = landing := by
  have opened : ∃ l, Ev.EventLoop.machine.run {} [.construct, .construct] = some l := ⟨_, rfl⟩
  obtain ⟨l, opened⟩ := opened
  obtain rfl := Option.some.inj opened
  have serves := loop_serves_the_operation (sequenceAwaitable oneBulk) oneBulk 1 _ _ opened ⟨rfl, by decide⟩ (by decide)
    stoppedInFlight _ _ rfl
  obtain ⟨hs, k', run, same⟩ := serves.2.2 landing _ rfl
  exact ⟨_, _, _, opened, rfl, rfl, serves.2.1 rfl, hs, _, k', run, same⟩

/-! ### A handler that does not count -/

def trivialDelivery (P : Pump σ) (q : Request) :
    Service (State σ) Event Ev.TrivialEventHandler.State Ev.TrivialEventHandler.Event where
  client := machine P q
  server := Ev.TrivialEventHandler.machine
  served := Event.inHandler
  attends loop := loop.loop == .handling
  allows s f := f != .handleEvents || s.callback == .idle

/-- A coroutine whose transfers nobody calls back. -/
structure Stranded (x : State σ × Ev.TrivialEventHandler.State) : Prop where
  left : x.2.loop = .left
  started : x.1.started = true
  free : x.1.callback = .idle
  posted : x.1.posted = 0
  pending : x.1.resumed = none

theorem stranded_step {x y : State σ × Ev.TrivialEventHandler.State} {g : Event ⊕ Ev.TrivialEventHandler.Event}
    (stranded : Stranded x) (h : (trivialDelivery P q).machine.step x g = some y) : Stranded y := by
  obtain ⟨s, l⟩ := x
  obtain ⟨t, l'⟩ := y
  obtain ⟨left, started, free, posted, pending⟩ := stranded
  cases g with
  | inr f =>
    obtain ⟨step, rfl, _⟩ := Service.step_server h
    exact ⟨Ev.TrivialEventHandler.left_step left step, started, free, posted, pending⟩
  | inl e =>
    obtain ⟨step, rfl, attended⟩ := Service.step_client h
    have unserved : e.inHandler ≠ true := by
      intro served
      have handling : l'.loop = .handling := by simpa [trivialDelivery] using attended served
      cases handling.symm.trans left
    dsimp only at started free posted pending
    cases step_cases step with
    | ready at_start | stopped at_start | filled at_start => simp [State.started, at_start] at started
    | submitOk | submitFail | recordFailure | leaveLoop => exact ⟨left, rfl, free, posted, pending⟩
    | complete | requestStop | cancel | finishStop => exact ⟨left, started, free, posted, pending⟩
    | resume some' => omega
    | drain | enter | proceedResume | proceedFail | resubmitOk | resubmitFail | storeFailure =>
      exact absurd rfl unserved

/-- Once stop is requested of a handler that does not count, its loop leaves within two steps whatever is in flight, and
a coroutine that was not posted until then is never resumed. -/
theorem trivial_handler_strands (P : Pump σ) (q : Request)
    (gs : List (Event ⊕ Ev.TrivialEventHandler.Event)) (s : State σ) (l : Ev.TrivialEventHandler.State)
    (h : (trivialDelivery P q).machine.run (initial P q, {}) gs = some (s, l)) (requested : l.stopRequested = true)
    (started : s.started = true) (free : s.callback = .idle) (posted : s.posted = 0) :
    ∃ hs l', hs.length ≤ 2 ∧ Service.clientEvents hs = [] ∧
      (trivialDelivery P q).machine.run (s, l) hs = some (s, l') ∧ l'.loop = .left ∧
      ∀ is t k, (trivialDelivery P q).machine.run (s, l') is = some (t, k) → t.resumed = none := by
  have pending : s.resumed = none := by
    by_contra resumed
    obtain ⟨⟨ec, n⟩, resumed⟩ := Option.ne_none_iff_exists'.mp resumed
    rcases ((returned_run (Service.client_run h)).2.resumed ec n resumed).2.2 with some' | handle | ready
    · omega
    · simp [State.started, handle] at started
    · simp [State.started, ready] at started
  obtain ⟨fs, few, run⟩ : ∃ fs : List Ev.TrivialEventHandler.Event, fs.length ≤ 2 ∧
      Ev.TrivialEventHandler.machine.run l fs = some { l with loop := .left } := by
    have test : Ev.TrivialEventHandler.machine.step { l with loop := .testing } .readStop =
        some { l with loop := .left } := by
      simp [Ev.TrivialEventHandler.machine, Ev.TrivialEventHandler.step, requested]
    cases at_loop : l.loop with
    | left =>
      have here : { l with loop := .left } = l := by rw [← at_loop]
      exact ⟨[], by simp, congrArg some here.symm⟩
    | testing =>
      have here : { l with loop := .testing } = l := by rw [← at_loop]
      rw [here] at test
      exact ⟨[.readStop], by simp, Machine.run_cons.mpr ⟨_, test, rfl⟩⟩
    | handling =>
      have back : Ev.TrivialEventHandler.machine.step l .handleEvents = some { l with loop := .testing } :=
        if_pos at_loop
      exact ⟨[.handleEvents, .readStop], by simp, Machine.run_cons.mpr ⟨_, back, Machine.run_cons.mpr ⟨_, test, rfl⟩⟩⟩
  refine ⟨fs.map .inr, { l with loop := .left }, by simpa using few, by simp [Service.clientEvents],
    Service.server_run run fun f _ => by simp [trivialDelivery, free], rfl, fun is t k rest => ?_⟩
  have stranded : Stranded (t, k) := Machine.run_invariant (fun stranded step => stranded_step stranded step)
    ⟨rfl, started, free, posted, pending⟩ rest
  exact stranded.pending

theorem trivial_handler_strands_one_bulk :
    ∃ s l, (trivialDelivery (sequenceAwaitable oneBulk) oneBulk).machine.run
        (initial (sequenceAwaitable oneBulk) oneBulk, {})
        [.inl .suspend, .inl (.submit 0), .inr .readStop, .inr .requestStop] = some (s, l) ∧
      ∃ hs l', hs.length ≤ 2 ∧ Service.clientEvents hs = [] ∧
        (trivialDelivery (sequenceAwaitable oneBulk) oneBulk).machine.run (s, l) hs = some (s, l') ∧ l'.loop = .left ∧
        ∀ is t k, (trivialDelivery (sequenceAwaitable oneBulk) oneBulk).machine.run (s, l') is = some (t, k) →
          t.resumed = none :=
  ⟨_, _, rfl, trivial_handler_strands (sequenceAwaitable oneBulk) oneBulk
    [.inl .suspend, .inl (.submit 0), .inr .readStop, .inr .requestStop] _ _ rfl rfl rfl rfl rfl⟩

end CoUsb.Transfer

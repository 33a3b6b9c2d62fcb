import CoUsb.Lib.Machine
import CoUsb.Libusb

/-!
# The event loop of a counted handler

A started `refcounted_event_handler` whose `libusb_handle_events_timeout` calls succeed, and
the `event_handler_ref`s to it. The loop reads the stop token and the counter in two steps, and
an assignment is two steps: the `unref` of the target, and the rest.
-/

namespace CoUsb.Ev.EventLoop

/-- Where the loop stands. -/
inductive Loop where
  | handling
  /-- The events are handled. -/
  | handled
  /-- `stop.stop_requested()` was true. -/
  | stopped
  | left
  deriving DecidableEq, Repr

/-- An `event_handler_ref`; one that is being assigned holds nothing from its `unref` on. -/
inductive Ref where
  | null
  | valid
  | assigning (other : Nat) (moves : Bool)
  | destroyed
  deriving DecidableEq, Repr

structure State where
  mCounter : Nat := 0
  stopRequested : Bool := false
  loop : Loop := .handling
  refs : List Ref := []

inductive Event where
  | handleEvents
  | readStop
  | readCounter
  | requestStop
  /-- A reference from the handler. -/
  | construct
  | copy (r : Nat)
  | move (r : Nat)
  | assign (a b : Nat) (moves : Bool)
  | assigned (a : Nat)
  | destroy (r : Nat)
  deriving DecidableEq, Repr

namespace Ref

def isValid (r : Ref) : Bool := r == .valid

def isLive (r : Ref) : Bool := r != .destroyed

/-- Whether an operation may read or end it. -/
def isIdle (r : Ref) : Bool := r == .valid || r == .null

end Ref

namespace State

/-- The live references with `m_original` set. -/
def held (s : State) : Nat := s.refs.countP Ref.isValid

def live (s : State) : Nat := s.refs.countP Ref.isLive

/-- Whether there is room for another reference. -/
def hasRoom (s : State) : Bool := s.live + 1 < 2 ^ 64

end State

variable (s : State)

def ref : State := { s with mCounter := sizeT (s.mCounter + 1) }

def unref : State := { s with mCounter := Word.sub 64 s.mCounter 1 }

def readStop : State := { s with loop := if s.stopRequested then .stopped else .handling }

def readCounter : State := { s with loop := if s.mCounter = 0 then .left else .handling }

def construct : State := ref { s with refs := s.refs ++ [.valid] }

def copy (r : Ref) : State := if r.isValid then construct s else { s with refs := s.refs ++ [.null] }

def move (i : Nat) (r : Ref) : State :=
  if r.isValid then { s with refs := s.refs.set i .null ++ [.valid] } else { s with refs := s.refs ++ [.null] }

/-- `if (m_original) unref();` of reference `i`, which becomes `next`. -/
def release (i : Nat) (r next : Ref) : State :=
  let s := { s with refs := s.refs.set i next }
  if r.isValid then unref s else s

/-- The assignment of `b`, which is `r`, to `a` from its `unref` on. -/
def assigned (a b : Nat) (r : Ref) (moves : Bool) : State :=
  if r.isValid then
    if moves then { s with refs := (s.refs.set b .null).set a .valid } else ref { s with refs := s.refs.set a .valid }
  else { s with refs := s.refs.set a .null }

def step (s : State) : Event → Option State
  | .handleEvents => if s.loop = .handling then some { s with loop := .handled } else none
  | .readStop => if s.loop = .handled then some (readStop s) else none
  | .readCounter => if s.loop = .stopped then some (readCounter s) else none
  | .requestStop => some { s with stopRequested := true }
  | .construct => if s.hasRoom then some (construct s) else none
  | .copy i =>
    match s.refs[i]? with
    | some r => if r.isIdle && s.hasRoom then some (copy s r) else none
    | none => none
  | .move i =>
    match s.refs[i]? with
    | some r => if r.isIdle && s.hasRoom then some (move s i r) else none
    | none => none
  | .assign a b moves =>
    match s.refs[a]?, s.refs[b]? with
    | some r, some r' =>
      if r.isIdle && r'.isIdle then some (if a = b then s else release s a r (.assigning b moves)) else none
    | _, _ => none
  | .assigned a =>
    match s.refs[a]? with
    | some (.assigning b moves) =>
      match s.refs[b]? with
      | some r => if r.isIdle then some (assigned s a b r moves) else none
      | none => none
    | _ => none
  | .destroy i =>
    match s.refs[i]? with
    | some r => if r.isIdle then some (release s i r .destroyed) else none
    | none => none

def machine : Machine State Event := ⟨step⟩

/-! ### What a step can do -/

section

variable {s s' : State} {e : Event}

inductive Step (s : State) : Event → State → Prop where
  | handleEvents (handling : s.loop = .handling) : Step s .handleEvents { s with loop := .handled }
  | readStop (handled : s.loop = .handled) : Step s .readStop (readStop s)
  | readCounter (stopped : s.loop = .stopped) : Step s .readCounter (readCounter s)
  | requestStop : Step s .requestStop { s with stopRequested := true }
  | construct (room : s.hasRoom = true) : Step s .construct (construct s)
  | copy (i : Nat) (r : Ref) (here : s.refs[i]? = some r) (idle : r.isIdle = true) (room : s.hasRoom = true) :
      Step s (.copy i) (copy s r)
  | move (i : Nat) (r : Ref) (here : s.refs[i]? = some r) (idle : r.isIdle = true) (room : s.hasRoom = true) :
      Step s (.move i) (move s i r)
  | assignSelf (a : Nat) (moves : Bool) : Step s (.assign a a moves) s
  | assign (a b : Nat) (r : Ref) (moves : Bool) (here : s.refs[a]? = some r) (idle : r.isIdle = true) :
      Step s (.assign a b moves) (release s a r (.assigning b moves))
  | assigned (a b : Nat) (r : Ref) (moves : Bool) (target : s.refs[a]? = some (.assigning b moves))
      (source : s.refs[b]? = some r) (idle : r.isIdle = true) : Step s (.assigned a) (assigned s a b r moves)
  | destroy (i : Nat) (r : Ref) (here : s.refs[i]? = some r) (idle : r.isIdle = true) :
      Step s (.destroy i) (release s i r .destroyed)

theorem step_cases (h : machine.step s e = some s') : Step s e s' := by
  replace h : step s e = some s' := h
  cases e with
  | handleEvents =>
    simp only [step, Option.ite_none_right_eq_some, Option.some.injEq] at h
    obtain ⟨handling, rfl⟩ := h
    exact .handleEvents handling
  | readStop =>
    simp only [step, Option.ite_none_right_eq_some, Option.some.injEq] at h
    obtain ⟨handled, rfl⟩ := h
    exact .readStop handled
  | readCounter =>
    simp only [step, Option.ite_none_right_eq_some, Option.some.injEq] at h
    obtain ⟨stopped, rfl⟩ := h
    exact .readCounter stopped
  | requestStop =>
    obtain rfl := Option.some.inj h
    exact .requestStop
  | construct =>
    simp only [step, Option.ite_none_right_eq_some, Option.some.injEq] at h
    obtain ⟨room, rfl⟩ := h
    exact .construct room
  | copy i | move i =>
    simp only [step] at h
    split at h
    case h_1 r here =>
      simp only [Option.ite_none_right_eq_some, Option.some.injEq, Bool.and_eq_true] at h
      obtain ⟨⟨idle, room⟩, rfl⟩ := h
      constructor <;> assumption
    case h_2 => cases h
  | assign a b moves =>
    simp only [step] at h
    split at h
    case h_1 r r' here _ =>
      simp only [Option.ite_none_right_eq_some, Option.some.injEq, Bool.and_eq_true] at h
      obtain ⟨⟨idle, _⟩, rfl⟩ := h
      split
      case isTrue same => exact same ▸ .assignSelf a moves
      case isFalse => exact .assign a b r moves here idle
    case h_2 => cases h
  | assigned a =>
    simp only [step] at h
    split at h
    case h_1 b moves target =>
      split at h
      case h_1 r source =>
        simp only [Option.ite_none_right_eq_some, Option.some.injEq] at h
        obtain ⟨idle, rfl⟩ := h
        exact .assigned a b r moves target source idle
      case h_2 => cases h
    case h_2 => cases h
  | destroy i =>
    simp only [step] at h
    split at h
    case h_1 r here =>
      simp only [Option.ite_none_right_eq_some, Option.some.injEq] at h
      obtain ⟨idle, rfl⟩ := h
      exact .destroy i r here idle
    case h_2 => cases h

end

/-! ### The counter -/

section

variable {s s' : State} {e : Event} {es fs : List Event} {i : Nat} {r : Ref}

theorem countP_set_of {p : Ref → Bool} {l : List Ref} {x y : Ref} (here : l[i]? = some x) :
    (l.set i y).countP p + (p x).toNat = l.countP p + (p y).toNat := by
  obtain ⟨bound, rfl⟩ := List.getElem?_eq_some_iff.mp here
  rw [List.countP_set bound]
  have some' : p l[i] = true → 0 < l.countP p :=
    fun holds => List.countP_pos_iff.mpr ⟨l[i], List.getElem_mem bound, holds⟩
  cases old : p l[i] with
  | false => cases p y <;> simp
  | true =>
    have one := some' old
    cases p y <;> simp <;> omega

/-- The counter is the number of valid references. -/
structure Counted (s : State) : Prop where
  counter : s.mCounter = s.held
  bound : s.live < 2 ^ 64

theorem held_le_live (s : State) : s.held ≤ s.live := by
  apply List.countP_mono_left
  intro r _ valid
  cases r <;> first | rfl | cases valid

theorem counted_ref {t : State} (counter : t.mCounter + 1 = t.held) (bound : t.live < 2 ^ 64) : Counted (ref t) := by
  have le := held_le_live t
  refine ⟨?_, bound⟩
  show sizeT (t.mCounter + 1) = t.held
  rw [counter]
  exact Word.wrap_of_lt (by omega)

theorem counted_unref {t : State} (counter : t.mCounter = t.held + 1) (bound : t.mCounter < 2 ^ 64)
    (live : t.live < 2 ^ 64) :
    Counted (unref t) := by
  refine ⟨?_, live⟩
  show Word.sub 64 t.mCounter 1 = t.held
  rw [Word.sub_of_le (by omega) bound]
  omega

theorem isLive_of_idle (idle : r.isIdle = true) : r.isLive = true := by
  cases r <;> first | rfl | cases idle

/-- A reference changes. -/
def put (s : State) (i : Nat) (r : Ref) : State := { s with refs := s.refs.set i r }

theorem held_put (next : Ref) (here : s.refs[i]? = some r) :
    (put s i next).held + r.isValid.toNat = s.held + next.isValid.toNat := countP_set_of here

theorem live_put (next : Ref) (here : s.refs[i]? = some r) (live : r.isLive = true) : (put s i next).live ≤ s.live := by
  have same : (put s i next).live + r.isLive.toNat = s.live + next.isLive.toNat := countP_set_of here
  have le := Bool.toNat_le next.isLive
  rw [live] at same
  show (put s i next).live ≤ s.live
  simp only [Bool.toNat_true] at same
  omega

theorem counted_release {next : Ref} (counted : Counted s) (here : s.refs[i]? = some r) (idle : r.isIdle = true)
    (gone : next.isValid = false) : Counted (release s i r next) := by
  obtain ⟨counter, bound⟩ := counted
  have held := held_put next here
  have live := live_put next here (isLive_of_idle idle)
  have le := held_le_live s
  rw [gone] at held
  unfold release
  show Counted (if r.isValid = true then unref (put s i next) else put s i next)
  cases valid : r.isValid with
  | true =>
    rw [valid] at held
    simp only [Bool.toNat_true, Bool.toNat_false] at held
    exact counted_unref (show s.mCounter = _ by omega) (show s.mCounter < _ by omega) (by omega)
  | false =>
    rw [valid] at held
    exact ⟨counter.trans held.symm, live.trans_lt bound⟩

theorem held_append (s : State) (r : Ref) :
    ({ s with refs := s.refs ++ [r] } : State).held = s.held + r.isValid.toNat := by
  show (s.refs ++ [r]).countP Ref.isValid = _
  rw [List.countP_append, List.countP_singleton]
  cases r.isValid <;> rfl

theorem live_append (s : State) (r : Ref) : ({ s with refs := s.refs ++ [r] } : State).live ≤ s.live + 1 := by
  show (s.refs ++ [r]).countP Ref.isLive ≤ _
  rw [List.countP_append]
  exact Nat.add_le_add_left List.countP_le_length _

theorem counted_construct (counted : Counted s) (room : s.hasRoom = true) : Counted (construct s) := by
  have room : s.live + 1 < 2 ^ 64 := of_decide_eq_true room
  have live := live_append s .valid
  refine counted_ref ?_ (by omega)
  rw [held_append]
  exact congrArg (· + 1) counted.counter

theorem counted_assigned {a b : Nat} {moves : Bool} (counted : Counted s)
    (target : s.refs[a]? = some (.assigning b moves))
    (source : s.refs[b]? = some r) (idle : r.isIdle = true) : Counted (assigned s a b r moves) := by
  obtain ⟨counter, bound⟩ := counted
  have apart : b ≠ a := by
    rintro rfl
    obtain rfl := Option.some.inj (target.symm.trans source)
    cases idle
  have put' : ∀ {t : State} (next : Ref), t.refs[a]? = some (.assigning b moves) →
      (put t a next).held = t.held + next.isValid.toNat ∧ (put t a next).live ≤ t.live :=
    fun next here => ⟨held_put next here, live_put next here rfl⟩
  unfold assigned
  split
  case isTrue valid =>
    split
    · have held := held_put .null source
      have live := live_put .null source (isLive_of_idle idle)
      have still : (put s b .null).refs[a]? = some (.assigning b moves) := by
        show (s.refs.set b .null)[a]? = _
        rw [List.getElem?_set_ne apart]
        exact target
      obtain ⟨more, most⟩ := put' .valid still
      rw [valid] at held
      refine ⟨?_, most.trans_lt (live.trans_lt bound)⟩
      show s.mCounter = (put (put s b .null) a .valid).held
      rw [more, counter]
      exact held.symm
    · obtain ⟨more, most⟩ := put' .valid target
      exact counted_ref (show s.mCounter + 1 = (put s a .valid).held by rw [more, counter]; rfl) (most.trans_lt bound)
  case isFalse =>
    obtain ⟨same, most⟩ := put' .null target
    exact ⟨counter.trans same.symm, most.trans_lt bound⟩

theorem counted_copy (counted : Counted s) (room : s.hasRoom = true) (r : Ref) : Counted (copy s r) := by
  unfold copy
  split
  · exact counted_construct counted room
  · have live := live_append s .null
    have free : s.live + 1 < 2 ^ 64 := of_decide_eq_true room
    exact ⟨counted.counter.trans (held_append s .null).symm, by omega⟩

theorem counted_move (counted : Counted s) (room : s.hasRoom = true) (here : s.refs[i]? = some r)
    (idle : r.isIdle = true) : Counted (move s i r) := by
  have free : s.live + 1 < 2 ^ 64 := of_decide_eq_true room
  unfold move
  split
  case isTrue valid =>
    have held := held_put .null here
    have live := live_put .null here (isLive_of_idle idle)
    have more := live_append (put s i .null) .valid
    rw [valid] at held
    refine ⟨?_, lt_of_le_of_lt more (by omega)⟩
    show s.mCounter = ({ put s i .null with refs := (put s i .null).refs ++ [.valid] } : State).held
    rw [held_append, counted.counter]
    exact held.symm
  case isFalse =>
    have live := live_append s .null
    exact ⟨counted.counter.trans (held_append s .null).symm, by omega⟩

theorem counted_step (counted : Counted s) (step : Step s e s') : Counted s' := by
  cases step with
  | handleEvents | readStop | readCounter | requestStop => exact ⟨counted.counter, counted.bound⟩
  | construct room => exact counted_construct counted room
  | copy i r _ _ room => exact counted_copy counted room r
  | move i r here idle room => exact counted_move counted room here idle
  | assignSelf => exact counted
  | assign a b r moves here idle => exact counted_release counted here idle rfl
  | assigned a b r moves target source idle => exact counted_assigned counted target source idle
  | destroy i r here idle => exact counted_release counted here idle rfl

theorem counted_run (h : machine.run {} es = some s) : Counted s :=
  Machine.run_invariant (fun counted step => counted_step counted (step_cases step)) ⟨rfl, by decide⟩ h

/-! ### The exit of the loop -/

/-- What a step does to the loop. -/
inductive Moves (s s' : State) : Prop where
  | stays (loop : s'.loop = s.loop)
  | handles (loop : s'.loop = .handling ∨ s'.loop = .handled)
  | stops (loop : s'.loop = .stopped) (requested : s.stopRequested = true)
  | leaves (loop : s'.loop = .left) (stopped : s.loop = .stopped) (zero : s.mCounter = 0)

@[simp] theorem release_loop (s : State) (i : Nat) (r next : Ref) : (release s i r next).loop = s.loop := by
  unfold release
  dsimp only
  split <;> rfl

@[simp] theorem release_stopRequested (s : State) (i : Nat) (r next : Ref) :
    (release s i r next).stopRequested = s.stopRequested := by
  unfold release
  dsimp only
  split <;> rfl

theorem assigned_frame (s : State) (a b : Nat) (r : Ref) (moves : Bool) :
    (assigned s a b r moves).loop = s.loop ∧ (assigned s a b r moves).stopRequested = s.stopRequested := by
  unfold assigned
  split
  · split <;> exact ⟨rfl, rfl⟩
  · exact ⟨rfl, rfl⟩

theorem step_moves (step : Step s e s') : Moves s s' ∧ (e ≠ .requestStop → s'.stopRequested = s.stopRequested) := by
  cases step with
  | handleEvents => exact ⟨.handles (.inr rfl), fun _ => rfl⟩
  | readStop =>
    refine ⟨?_, fun _ => rfl⟩
    cases requested : s.stopRequested with
    | true => exact .stops (by simp [readStop, requested]) requested
    | false => exact .handles (.inl (by simp [readStop, requested]))
  | readCounter stopped =>
    refine ⟨?_, fun _ => rfl⟩
    by_cases zero : s.mCounter = 0
    · exact .leaves (by simp [readCounter, zero]) stopped zero
    · exact .handles (.inl (by simp [readCounter, zero]))
  | requestStop => exact ⟨.stays rfl, fun other => absurd rfl other⟩
  | construct | assignSelf => exact ⟨.stays rfl, fun _ => rfl⟩
  | copy i r =>
    unfold copy
    split <;> exact ⟨.stays rfl, fun _ => rfl⟩
  | move i r =>
    unfold move
    split <;> exact ⟨.stays rfl, fun _ => rfl⟩
  | assign | destroy => exact ⟨.stays (by simp), fun _ => by simp⟩
  | assigned a b r moves =>
    obtain ⟨loop, requested⟩ := assigned_frame s a b r moves
    exact ⟨.stays loop, fun _ => requested⟩

/-- Before the stop request the loop does not get past its test of the token. -/
theorem early_run (h : machine.run {} es = some s) (none : .requestStop ∉ es) :
    s.stopRequested = false ∧ s.loop ≠ .stopped ∧ s.loop ≠ .left := by
  induction es using List.reverseRecOn generalizing s with
  | nil =>
    obtain rfl := Option.some.inj h
    exact ⟨rfl, by simp, by simp⟩
  | append_singleton es e ih =>
    obtain ⟨u, before, last⟩ := Machine.run_concat.mp h
    obtain ⟨requested, outside, inside⟩ := ih before fun member => none (List.mem_append_left _ member)
    obtain ⟨moves, kept⟩ := step_moves (step_cases last)
    refine ⟨(kept fun same => none (by simp [same])).trans requested, ?_⟩
    cases moves with
    | stays loop => exact ⟨loop ▸ outside, loop ▸ inside⟩
    | handles loop => rcases loop with loop | loop <;> simp [loop]
    | stops _ now => cases requested.symm.trans now
    | leaves _ stopped => exact absurd stopped outside

/-- If a valid reference is alive when stop is first requested and at every step from then on,
the loop does not leave. -/
theorem loop_outlives (h : machine.run {} (es ++ .requestStop :: fs) = some s) (first : .requestStop ∉ es)
    (held : ∀ gs u, gs <+: fs → machine.run {} (es ++ .requestStop :: gs) = some u → 0 < u.held) :
    s.loop ≠ .left := by
  induction fs using List.reverseRecOn generalizing s with
  | nil =>
    obtain ⟨u, before, last⟩ := Machine.run_concat.mp h
    obtain ⟨_, _, inside⟩ := early_run before first
    obtain rfl := Option.some.inj last
    exact inside
  | append_singleton fs e ih =>
    rw [← List.cons_append, ← List.append_assoc] at h
    obtain ⟨u, before, last⟩ := Machine.run_concat.mp h
    have inside := ih before fun gs v initial => held gs v (initial.trans (List.prefix_append _ _))
    have some' := held fs u (List.prefix_append _ _) before
    intro left
    cases (step_moves (step_cases last)).1 with
    | stays loop => exact inside (loop.symm.trans left)
    | handles loop => rcases loop with loop | loop <;> cases loop.symm.trans left
    | stops loop => cases loop.symm.trans left
    | leaves _ _ zero =>
      have counter := (counted_run before).counter
      omega

theorem loop_outlives_copy : ∃ s, machine.run {} ([.construct, .copy 0] ++ .requestStop ::
    [.handleEvents, .readStop, .assign 0 1 false, .readCounter]) = some s ∧ s.loop ≠ .left := by
  have h : ∃ s, machine.run {} ([.construct, .copy 0] ++ .requestStop ::
      [.handleEvents, .readStop, .assign 0 1 false, .readCounter]) = some s := ⟨_, rfl⟩
  obtain ⟨s, h⟩ := h
  refine ⟨s, h, loop_outlives h (by decide) fun gs u initial reached => ?_⟩
  rw [← List.mem_inits] at initial
  simp only [List.inits, List.map_cons, List.map_nil, List.mem_cons, List.not_mem_nil, or_false] at initial
  rcases initial with rfl | rfl | rfl | rfl | rfl <;> (obtain rfl := Option.some.inj reached; decide)

end

end CoUsb.Ev.EventLoop

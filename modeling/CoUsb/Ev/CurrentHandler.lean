import CoUsb.Ev.HandlerService

/-!
# The handler a started service runs

`m_started` is set once and never reset, so it says nothing about a handler or a context
that comes after the first start.
-/

namespace CoUsb.Ev

variable {s s' : State} {e : Operation} {es : List Operation} {type : HandlerType} {built : Bool} {launch : Launch}
  {r : Int}

/-- The stored handler was started with the current context and a token of the current stop source. -/
def State.Running (s : State) : Prop :=
  ∃ h, s.mHandler = some h ∧ .start h.id s.mUsbCtx s.mStop.id true ∈ s.log

/-- Handlers and contexts to come were not used before. -/
structure Fresh (s : State) : Prop where
  handler : ∀ h, s.mHandler = some h → h.id < s.nextHandler
  context : ∀ c, s.mUsbCtx = some c → c < s.nextContext
  starts : ∀ h c i ok, .start h c i ok ∈ s.log → h < s.nextHandler ∧ ∀ k, c = some k → k < s.nextContext

/-- A step that replaces nothing and starts nothing. -/
structure Aside (s s' : State) : Prop where
  handler : s'.mHandler.map Handler.id = s.mHandler.map Handler.id
  context : s'.mUsbCtx = s.mUsbCtx
  source : s'.mStop.id = s.mStop.id
  started : s'.mStarted = s.mStarted
  nextHandler : s'.nextHandler = s.nextHandler
  nextContext : s'.nextContext = s.nextContext
  starts : ∀ h c i ok, .start h c i ok ∈ s'.log ↔ .start h c i ok ∈ s.log

theorem Aside.refl (s : State) : Aside s s := ⟨rfl, rfl, rfl, rfl, rfl, rfl, fun _ _ _ _ => Iff.rfl⟩

theorem Aside.trans {s₁ s₂ s₃ : State} (first : Aside s₁ s₂) (second : Aside s₂ s₃) : Aside s₁ s₃ :=
  ⟨second.handler.trans first.handler, second.context.trans first.context, second.source.trans first.source,
    second.started.trans first.started, second.nextHandler.trans first.nextHandler,
    second.nextContext.trans first.nextContext, fun h c i ok => (second.starts h c i ok).trans (first.starts h c i ok)⟩

theorem running_iff :
    s.Running ↔ ∃ h, s.mHandler.map Handler.id = some h ∧ .start h s.mUsbCtx s.mStop.id true ∈ s.log := by
  constructor
  · rintro ⟨h, stored, started⟩
    exact ⟨h.id, by rw [stored]; rfl, started⟩
  · rintro ⟨i, stored, started⟩
    obtain ⟨h, found, rfl⟩ := Option.map_eq_some_iff.mp stored
    exact ⟨h, found, started⟩

theorem Aside.running (aside : Aside s s') : s'.Running ↔ s.Running := by
  rw [running_iff, running_iff, aside.handler, aside.context, aside.source]
  simp only [aside.starts]

theorem Aside.fresh (aside : Aside s s') (fresh : Fresh s) : Fresh s' := by
  refine ⟨fun h stored => ?_, fun c now => ?_, fun h c i ok member => ?_⟩
  · have same := aside.handler
    rw [stored] at same
    obtain ⟨h', before, same⟩ := Option.map_eq_some_iff.mp same.symm
    rw [aside.nextHandler]
    show h.id < s.nextHandler
    rw [← same]
    exact fresh.handler h' before
  · rw [aside.nextContext]
    exact fresh.context c (aside.context.symm.trans now)
  · rw [aside.nextHandler, aside.nextContext]
    exact fresh.starts h c i ok ((aside.starts h c i ok).mp member)

/-! ### Calls that replace nothing -/

theorem RefsOnly.aside (refs : RefsOnly s s') : Aside s s' := by
  obtain ⟨more, log, unrefs⟩ := refs.log
  refine ⟨?_, refs.context, congrArg StopSource.id refs.source, refs.started, refs.nextHandler, refs.nextContext, ?_⟩
  · have same := congrArg (Option.map Handler.id) refs.handler
    rw [Option.map_map, Option.map_map] at same
    exact same
  · intro h c i ok
    rw [log, List.mem_append]
    apply or_iff_left
    intro member
    obtain ⟨_, _, unref⟩ := unrefs _ member
    cases unref

theorem aside_stopHandler (h : stopHandler s = some s') : Aside s s' := by
  obtain ⟨_, rfl⟩ | ⟨x, stored, _, rfl⟩ := stopHandler_cases h
  · exact .refl s'
  · exact ⟨by simp [stored], rfl, rfl, rfl, rfl, rfl, by simp⟩

theorem aside_returned (s : State) (result : Result) : Aside s { s with returned := result } :=
  ⟨rfl, rfl, rfl, rfl, rfl, rfl, fun _ _ _ _ => Iff.rfl⟩

theorem aside_requested (s : State) : Aside s { s with mStop := { s.mStop with requested := true } } :=
  ⟨rfl, rfl, rfl, rfl, rfl, rfl, fun _ _ _ _ => Iff.rfl⟩

theorem aside_requestStop (s : State) : Aside s (requestStop s) := ⟨rfl, rfl, rfl, rfl, rfl, rfl, by simp [requestStop]⟩

theorem aside_shutdown (h : shutdown s = some s') : Aside s s' := (aside_requested s).trans (aside_stopHandler h)

/-! ### Calls that replace -/

/-- After a call that replaced the handler or the context nothing runs. -/
structure Replaced (s s' : State) : Prop where
  fresh : Fresh s'
  idle : ¬ s'.Running
  started : s'.mStarted = s.mStarted

theorem initContext_replaced (fresh : Fresh s) : Replaced s (initContext s 0).1 ∧ (initContext s 0).2 = {} := by
  have starts : ∀ h c i ok, .start h c i ok ∈ (initContext s 0).1.log ↔ .start h c i ok ∈ s.log := by
    intro h c i ok
    unfold initContext
    cases s.mUsbCtx <;> simp
  refine ⟨⟨⟨fresh.handler, fun c now => ?_, fun h c i ok member => ?_⟩, ?_, rfl⟩, rfl⟩
  · obtain rfl := Option.some.inj now
    exact Nat.lt_succ_self _
  · obtain ⟨handler, context⟩ := fresh.starts h c i ok ((starts h c i ok).mp member)
    exact ⟨handler, fun k now => Nat.lt_succ_of_lt (context k now)⟩
  · rintro ⟨h, _, member⟩
    exact lt_irrefl _ ((fresh.starts _ _ _ _ ((starts ..).mp member)).2 s.nextContext rfl)

theorem emplace_replaced (fresh : Fresh s) (type : HandlerType) (built : Bool) : Replaced s (emplace s type built) := by
  have log : ∀ h c i ok, .start h c i ok ∈ (emplace s type built).log ↔ .start h c i ok ∈ s.log := by
    intro h c i ok
    unfold emplace destroyHandler
    cases built <;> cases s.mHandler <;> simp
  have context : (emplace s type built).mUsbCtx = s.mUsbCtx ∧ (emplace s type built).nextContext = s.nextContext ∧
      (emplace s type built).mStarted = s.mStarted ∧ s.nextHandler ≤ (emplace s type built).nextHandler := by
    unfold emplace destroyHandler
    cases built <;> cases s.mHandler <;> simp
  have stored : ∀ h, (emplace s type built).mHandler = some h →
      h.id = s.nextHandler ∧ (emplace s type built).nextHandler = s.nextHandler + 1 := by
    intro h
    unfold emplace destroyHandler
    cases built <;> cases same : s.mHandler <;> simp +contextual [same, eq_comm]
  refine ⟨⟨fun h now => ?_, fun c now => ?_, fun h c i ok member => ?_⟩, ?_, context.2.2.1⟩
  · obtain ⟨same, next⟩ := stored h now
    omega
  · rw [context.2.1]
    exact fresh.context c (context.1 ▸ now)
  · rw [context.2.1]
    obtain ⟨handler, bound⟩ := fresh.starts h c i ok ((log h c i ok).mp member)
    exact ⟨handler.trans_le context.2.2.2, bound⟩
  · rintro ⟨h, now, member⟩
    have used := (fresh.starts _ _ _ _ ((log ..).mp member)).1
    have same := (stored h now).1
    omega

theorem emplaceHandler_replaced (fresh : Fresh s) (h : emplaceHandler s type built = some s') : Replaced s s' := by
  unfold emplaceHandler at h
  split at h
  · split at h
    · cases h
    · rename_i t stopped
      obtain rfl := Option.some.inj h
      have aside := (aside_requested s).trans (aside_stopHandler stopped)
      have reset : Fresh { t with mStop := ⟨t.nextSource, false⟩, nextSource := t.nextSource + 1 } := by
        obtain ⟨handler, context, starts⟩ := aside.fresh fresh
        exact ⟨handler, context, starts⟩
      obtain ⟨fresh, idle, started⟩ := emplace_replaced reset type built
      exact ⟨fresh, idle, started.trans aside.started⟩
  · obtain rfl := Option.some.inj h
    exact emplace_replaced fresh type built

/-! ### One call -/

/-- A call that replaces the handler or the context, in part at least. -/
def Operation.replaces : Operation → Bool
  | .initContext r | .makeContext r _ _ _ => r == 0
  | .emplaceHandler _ _ => true
  | _ => false

/-- What a call does to a service that is started, and to one that is not. -/
structure Effect (s : State) (e : Operation) (s' : State) : Prop where
  fresh : Fresh s'
  before : s.mStarted = true → s'.mStarted = true ∧ (s'.alive = true →
    (e.replaces = false → (s'.Running ↔ s.Running)) ∧ (e.replaces = true → ¬ s'.Running))
  first : s.mStarted = false → s'.mStarted = true → s'.Running

theorem Aside.effect (aside : Aside s s') (fresh : Fresh s) (kept : e.replaces = false) : Effect s e s' :=
  ⟨aside.fresh fresh, fun started => ⟨aside.started.trans started, fun _ => ⟨fun _ => aside.running,
      fun replaces => absurd (kept.symm.trans replaces) (by simp)⟩⟩,
    fun idle now => absurd (idle.symm.trans (aside.started.symm.trans now)) (by simp)⟩

theorem Replaced.effect (replaced : Replaced s s') (replaces : s.mStarted = true → e.replaces = true) : Effect s e s' :=
  ⟨replaced.fresh, fun started => ⟨replaced.started.trans started, fun _ => ⟨fun kept =>
      absurd (kept.symm.trans (replaces started)) (by simp), fun _ => replaced.idle⟩⟩,
    fun idle now => absurd (idle.symm.trans (replaced.started.symm.trans now)) (by simp)⟩

theorem start_started (started : s.mStarted = true) : start s launch = (s, some true) := if_pos started

/-- The first start either runs the stored handler or leaves the service as it was. -/
theorem start_first (launch : Launch) (fresh : Fresh s) (idle : s.mStarted = false) :
    Fresh (start s launch).1 ∧ ((start s launch).1.mStarted = true → (start s launch).1.Running) := by
  obtain ⟨handler, context, starts⟩ := id fresh
  have used : ∀ h, s.mHandler = some h → ∀ h' c i ok ok',
      .start h' c i ok ∈ s.log ++ [.start h.id s.mUsbCtx s.mStop.id ok'] →
      h' < s.nextHandler ∧ ∀ k, c = some k → k < s.nextContext := by
    intro h stored h' c i ok ok' member
    rcases List.mem_append.mp member with old | new
    · exact starts _ _ _ _ old
    · obtain ⟨rfl, rfl, _, _⟩ := Action.start.inj (List.mem_singleton.mp new)
      exact ⟨handler h stored, context⟩
  unfold start startHandler
  rw [idle]
  cases stored : s.mHandler with
  | none => exact ⟨⟨fun h now => handler h now, context, starts⟩, by simp⟩
  | some h =>
    cases launch with
    | throws => exact ⟨fresh, fun now => absurd (idle.symm.trans now) (by simp)⟩
    | no =>
      refine ⟨⟨fun h' now => ?_, context, fun _ _ _ _ => used h stored _ _ _ _ _⟩, by simp⟩
      obtain rfl := Option.some.inj now
      exact handler h stored
    | yes =>
      refine ⟨⟨fun h' now => ?_, context, fun _ _ _ _ => used h stored _ _ _ _ _⟩, fun _ => ⟨_, rfl, by simp⟩⟩
      obtain rfl := Option.some.inj now
      exact handler h stored

theorem Effect.returned (effect : Effect s e s') (result : Result) : Effect s e { s' with returned := result } := by
  have aside := aside_returned s' result
  exact ⟨aside.fresh effect.fresh, effect.before, effect.first⟩

theorem start_effect (launch : Launch) (fresh : Fresh s) (kept : e.replaces = false) :
    Effect s e (start s launch).1 := by
  cases started : s.mStarted with
  | true =>
    rw [start_started started]
    exact (Aside.refl s).effect fresh kept
  | false =>
    obtain ⟨next, running⟩ := start_first launch fresh started
    exact ⟨next, fun now => absurd (started.symm.trans now) (by simp), fun _ => running⟩

theorem emplaceAndStart_effect {result : Result} (replaced : Replaced s s')
    (replaces : s.mStarted = true → e.replaces = true) {t : State}
    (h : emplaceAndStart s' type built launch result = some t) : Effect s e t := by
  unfold emplaceAndStart at h
  split at h
  · cases h
  · rename_i u emplaced
    obtain ⟨fresh, idle, started⟩ := emplaceHandler_replaced replaced.fresh emplaced
    have same := started.trans replaced.started
    split at h
    · have aside := ((refs_newRef u).trans (refs_dropRef (newRef u) u.nextRef)).aside
      have effect : Effect s e (start (dropRef (newRef u) u.nextRef) launch).1 := by
        cases before : s.mStarted with
        | true =>
          rw [start_started (aside.started.trans (same.trans before))]
          exact Replaced.effect ⟨aside.fresh fresh, fun running => idle (aside.running.mp running),
            aside.started.trans same⟩ replaces
        | false =>
          obtain ⟨next, running⟩ := start_first launch (aside.fresh fresh)
            (aside.started.trans (same.trans before))
          exact ⟨next, fun now => absurd (before.symm.trans now) (by simp), fun _ => running⟩
      split at h
      all_goals
        rename_i launched
        rw [launched] at effect
        exact Option.some.inj h ▸ effect.returned _
    · exact Option.some.inj h ▸ (Replaced.effect ⟨fresh, idle, same⟩ replaces).returned _

theorem initContext_effect (fresh : Fresh s) (r : Int) (replaces : r = 0 → s.mStarted = true → e.replaces = true)
    (kept : r ≠ 0 → e.replaces = false) : Effect s e (initContext s r).1 := by
  by_cases failed : r = 0
  · subst failed
    exact (initContext_replaced fresh).1.effect (replaces rfl)
  · rw [initContext_failed failed]
    exact (Aside.refl s).effect fresh (kept failed)

theorem makeContext_effect (fresh : Fresh s) (replaces : r = 0 → s.mStarted = true → e.replaces = true)
    (kept : r ≠ 0 → e.replaces = false) {result failure : Result}
    (h : (match initContext s r with
      | (s, ec) =>
        if ec.isError then some { s with returned := failure } else emplaceAndStart s type built launch result) =
      some s') : Effect s e s' := by
  by_cases failed : r = 0
  · subst failed
    obtain ⟨replaced, ec⟩ := initContext_replaced fresh
    rw [show initContext s 0 = ((initContext s 0).1, {}) from Prod.ext rfl ec] at h
    exact emplaceAndStart_effect replaced (replaces rfl) h
  · rw [initContext_failed failed] at h
    dsimp only at h
    rw [if_pos (by simpa using failed)] at h
    exact Option.some.inj h ▸ ((Aside.refl s).effect fresh (kept failed)).returned _

theorem aside_exit (s : State) : Aside s { s with alive := false, log := s.log ++ [.exit s.mUsbCtx] } :=
  ⟨rfl, rfl, rfl, rfl, rfl, rfl, by simp⟩

theorem destroyed_effect (aside : Aside s s') (fresh : Fresh s) (dead : s'.alive = false) :
    Effect s e (destroyHandler s') := by
  have same : (destroyHandler s').mStarted = s.mStarted ∧ (destroyHandler s').alive = false ∧
      Fresh (destroyHandler s') := by
    obtain ⟨handler, context, starts⟩ := id (aside.fresh fresh)
    unfold destroyHandler
    split
    · exact ⟨aside.started, dead, aside.fresh fresh⟩
    · exact ⟨aside.started, dead, by simp, context, by simpa using starts⟩
  exact ⟨same.2.2, fun started => ⟨same.1.trans started, fun alive => absurd (alive.symm.trans same.2.1) (by simp)⟩,
    fun idle now => absurd (idle.symm.trans (same.1.symm.trans now)) (by simp)⟩

theorem call_effect (fresh : Fresh s) (h : call s e = some s') : Effect s e s' := by
  have quiet : ∀ {t result}, Aside s t → e.replaces = false → some { t with returned := result } = some s' →
      Effect s e s' := fun aside kept same => Option.some.inj same ▸ (aside.effect fresh kept).returned _
  cases e with
  | initContext r =>
    refine Option.some.inj h ▸ (initContext_effect fresh r (fun ok _ => ?_) fun failed => ?_).returned _
    · simp [Operation.replaces, ok]
    · simp [Operation.replaces, failed]
  | emplaceHandler type built =>
    simp only [call, Option.ite_none_right_eq_some, Option.map_eq_some_iff] at h
    obtain ⟨_, t, emplaced, rfl⟩ := h
    have replaced := emplaceHandler_replaced fresh emplaced
    cases built with
    | true =>
      have aside := (refs_newRef t).aside
      have effect : Effect s (.emplaceHandler type true) (newRef t) :=
        Replaced.effect ⟨aside.fresh replaced.fresh, fun running => replaced.idle (aside.running.mp running),
          aside.started.trans replaced.started⟩ fun _ => rfl
      exact effect.returned _
    | false => exact (replaced.effect fun _ => rfl).returned _
  | start launch =>
    have effect := start_effect (e := .start launch) launch fresh rfl
    simp only [call] at h
    split at h
    all_goals
      rename_i launched
      rw [launched] at effect
      exact Option.some.inj h ▸ effect.returned _
  | requestStop => exact quiet (aside_requestStop s) rfl h
  | shutdown =>
    obtain ⟨t, stopped, same⟩ := Option.map_eq_some_iff.mp h
    exact quiet (aside_shutdown stopped) rfl (congrArg some same)
  | destruct =>
    simp only [call, destruct, Option.map_map, Option.map_eq_some_iff, Function.comp] at h
    obtain ⟨t, stopped, rfl⟩ := h
    exact (destroyed_effect ((aside_shutdown stopped).trans (aside_exit t)) fresh rfl).returned _
  | makeContext r type built launch =>
    simp only [call, Option.ite_none_right_eq_some] at h
    refine makeContext_effect fresh (fun ok _ => ?_) (fun failed => ?_) h.2
    · simp [Operation.replaces, ok]
    · simp [Operation.replaces, failed]
  | getHandlerService r built launch =>
    simp only [call, getHandlerService, Option.ite_none_right_eq_some] at h
    by_cases started : s.mStarted = true
    · rw [if_pos started] at h
      exact quiet (.refl s) rfl h.2
    · rw [if_neg started] at h
      exact makeContext_effect fresh (fun _ now => absurd now started) (fun _ => rfl) h.2
  | handler | copy | move | copyAssign | moveAssign | drop =>
    obtain ⟨t, result, refs, rfl⟩ := call_refs h rfl
    exact quiet refs.aside rfl rfl

/-! ### Runs -/

/-- `start()` returned true, or `make_context` or `get_handler_service` returned. -/
def State.Promised (s : State) : Prop := s.returned = .flag true ∨ s.returned = .context ∨ s.returned = .service

/-- The handlers' own `start` succeeds. -/
def Operation.launches : Operation → Prop
  | .start launch | .makeContext _ _ _ launch | .getHandlerService _ _ launch => launch = .yes
  | _ => True

/-- Nothing is replaced in a service that is started. -/
def ReplacesEarly (s : State) (e : Operation) : Prop := e.replaces = true → s.mStarted = false

instance (s : State) (e : Operation) : Decidable (ReplacesEarly s e) := inferInstanceAs (Decidable (_ → _))

theorem start_yes (stored : s.mHandler.isSome = true) :
    (start s .yes).1.mStarted = true ∧ (start s .yes).2 = some true := by
  obtain ⟨h, stored⟩ := Option.isSome_iff_exists.mp stored
  unfold start startHandler
  split
  case isTrue started => exact ⟨started, rfl⟩
  case isFalse => simp [stored]

theorem start_flag (h : start s launch = (s', some true)) : s'.mStarted = true := by
  unfold start at h
  split at h
  case isTrue started => exact (Prod.mk.inj h).1 ▸ started
  case isFalse =>
    split at h
    · obtain ⟨same, ok⟩ := Prod.mk.inj h
      rw [← same]
      exact Option.some.inj ok
    · cases (Prod.mk.inj h).2

theorem emplaceHandler_stored (h : emplaceHandler s type true = some s') : s'.mHandler.isSome = true := by
  unfold emplaceHandler at h
  split at h
  · split at h
    · cases h
    · exact Option.some.inj h ▸ rfl
  · exact Option.some.inj h ▸ rfl

theorem emplaceAndStart_started {result : Result} (h : emplaceAndStart s type built .yes result = some s')
    (promised : s'.Promised) : s'.mStarted = true := by
  unfold emplaceAndStart at h
  split at h
  · cases h
  · rename_i t emplaced
    split at h
    case isTrue done =>
      subst done
      have aside := ((refs_newRef t).trans (refs_dropRef (newRef t) t.nextRef)).aside
      have stored : (dropRef (newRef t) t.nextRef).mHandler.isSome = true := by
        have same := congrArg Option.isSome aside.handler
        rw [Option.isSome_map, Option.isSome_map] at same
        exact same.trans (emplaceHandler_stored emplaced)
      obtain ⟨started, ok⟩ := start_yes stored
      split at h
      all_goals
        rename_i launched
        rw [launched] at started
        exact Option.some.inj h ▸ started
    case isFalse =>
      obtain rfl := Option.some.inj h
      simp [State.Promised] at promised

theorem call_started (h : call s e = some s') (launches : e.launches) (promised : s'.Promised) :
    s'.mStarted = true := by
  cases e with
  | start launch =>
    simp only [call] at h
    split at h
    case h_1 t ok launched =>
      obtain rfl := Option.some.inj h
      have yes : ok = true := by simpa [State.Promised] using promised
      subst yes
      show t.mStarted = true
      exact start_flag launched
    case h_2 =>
      obtain rfl := Option.some.inj h
      simp [State.Promised] at promised
  | makeContext r type built launch =>
    obtain rfl : launch = .yes := launches
    simp only [call, makeContext, Option.ite_none_right_eq_some] at h
    obtain ⟨_, h⟩ := h
    split at h
    · obtain rfl := Option.some.inj h
      simp [State.Promised] at promised
    · exact emplaceAndStart_started h promised
  | getHandlerService r built launch =>
    obtain rfl : launch = .yes := launches
    simp only [call, getHandlerService, Option.ite_none_right_eq_some] at h
    obtain ⟨_, h⟩ := h
    split at h
    case isTrue started => exact Option.some.inj h ▸ started
    case isFalse =>
      split at h
      · obtain rfl := Option.some.inj h
        simp [State.Promised] at promised
      · exact emplaceAndStart_started h promised
  | initContext | requestStop =>
    obtain rfl := Option.some.inj h
    simp [State.Promised] at promised
  | emplaceHandler type built =>
    simp only [call, Option.ite_none_right_eq_some, Option.map_eq_some_iff] at h
    obtain ⟨_, t, _, rfl⟩ := h
    cases built <;> simp [State.Promised] at promised
  | shutdown | destruct =>
    obtain ⟨t, _, rfl⟩ := Option.map_eq_some_iff.mp h
    simp [State.Promised] at promised
  | handler | copy | move | copyAssign | moveAssign | drop =>
    simp only [call, Option.ite_none_right_eq_some] at h
    obtain rfl := Option.some.inj h.2
    simp [State.Promised] at promised

theorem fresh_initial : Fresh {} := ⟨by simp, by simp, by simp⟩

theorem step_effect (fresh : Fresh s) (h : machine.step s e = some s') : Effect s e s' :=
  call_effect fresh (step_call h).2

/-- As long as nothing is replaced in a started service, what is started runs. -/
theorem running_run (h : machine.run {} es = some s) (early : machine.Meets ReplacesEarly {} es) :
    Fresh s ∧ (s.alive = true → s.mStarted = true → s.Running) := by
  refine Machine.run_invariant_of_meets (I := fun s => Fresh s ∧ (s.alive = true → s.mStarted = true → s.Running)) ?_
    ⟨fresh_initial, fun _ started => by cases started⟩ h early
  rintro s e s' ⟨fresh, running⟩ early step
  obtain ⟨fresh', before, first⟩ := step_effect fresh step
  refine ⟨fresh', fun alive started => ?_⟩
  cases already : s.mStarted with
  | false => exact first already started
  | true =>
    have kept : e.replaces = false := Bool.eq_false_iff.mpr fun replaces => by
      simp [early replaces] at already
    exact (((before already).2 alive).1 kept).mpr (running (step_call step).1 already)

/-- A started service that does not run its handler never will. -/
theorem stale_run {u : State} (fresh : Fresh u) (stale : u.mStarted = true ∧ (u.alive = true → ¬ u.Running))
    (h : machine.run u es = some s) : s.alive = true → ¬ s.Running := by
  have kept : Fresh s ∧ s.mStarted = true ∧ (s.alive = true → ¬ s.Running) := by
    refine Machine.run_invariant (I := fun s => Fresh s ∧ s.mStarted = true ∧ (s.alive = true → ¬ s.Running)) ?_
      ⟨fresh, stale⟩ h
    rintro s e s' ⟨fresh, started, idle⟩ step
    obtain ⟨fresh', before, _⟩ := step_effect fresh step
    obtain ⟨started', after⟩ := before started
    refine ⟨fresh', started', fun alive => ?_⟩
    obtain ⟨kept, replaced⟩ := after alive
    cases replaces : e.replaces with
    | false => exact fun running => idle (step_call step).1 ((kept replaces).mp running)
    | true => exact replaced replaces
  exact kept.2.2

theorem early_of_running (h : machine.run {} es = some s) (alive : s.alive = true) (running : s.Running) :
    machine.Meets ReplacesEarly {} es := by
  by_contra fails
  obtain ⟨fs, e, rest, u, w, rfl, reached, broken, step, later⟩ := Machine.exists_of_not_meets h fails
  have fresh : Fresh u :=
    Machine.run_invariant (I := Fresh) (fun fresh step => (step_effect fresh step).fresh) fresh_initial reached
  obtain ⟨fresh', before, _⟩ := step_effect fresh step
  simp only [ReplacesEarly, not_forall, Bool.not_eq_false] at broken
  obtain ⟨replaces, started⟩ := broken
  obtain ⟨started', after⟩ := before started
  exact stale_run fresh' ⟨started', fun alive => (after alive).2 replaces⟩ later alive running

theorem call_destruct (h : call s .destruct = some s') : s'.returned = .none := by
  obtain ⟨t, _, rfl⟩ := Option.map_eq_some_iff.mp h
  rfl

theorem promised_step (h : machine.run {} es = some s) (promised : s.Promised) :
    ∃ fs e u, es = fs ++ [e] ∧ machine.step u e = some s ∧ s.alive = true := by
  rcases es.eq_nil_or_concat' with rfl | ⟨fs, e, rfl⟩
  · obtain rfl := Option.some.inj h
    simp [State.Promised] at promised
  · obtain ⟨u, _, last⟩ := Machine.run_concat.mp h
    obtain ⟨alive, called⟩ := step_call last
    refine ⟨fs, e, u, rfl, last, ?_⟩
    rcases call_alive called with rfl | same
    · simp [State.Promised, call_destruct called] at promised
    · exact same.trans alive

/-- When the handlers' own `start` succeeds, a call that promises a running handler keeps the promise exactly
when nothing was replaced in a started service. Stop requests and calls of `shutdown` may come at any time, also
after the last handler was stored. -/
theorem promised_running_iff (h : machine.run {} es = some s) (launches : ∀ e ∈ es, e.launches)
    (promised : s.Promised) : s.Running ↔ machine.Meets ReplacesEarly {} es := by
  obtain ⟨fs, e, u, rfl, last, alive⟩ := promised_step h promised
  constructor
  · exact early_of_running h alive
  · intro early
    have started := call_started (step_call last).2 (launches e (by simp)) promised
    exact (running_run h early).2 alive started

theorem promised_running_iff_made : ∃ s, machine.run {} [.makeContext 0 .refcounted true .yes] = some s ∧
    s.Running := by
  have run : machine.run {} [.makeContext 0 .refcounted true .yes] = some _ := rfl
  refine ⟨_, run, (promised_running_iff run ?_ (.inr (.inl rfl))).mpr (by decide)⟩
  simp [Operation.launches]

/-- `make_context` twice: the second call stops the first handler, and leaves the second one unstarted. -/
theorem makeContext_again : ∃ s,
    machine.run {} [.makeContext 0 .refcounted true .yes, .makeContext 0 .refcounted true .yes] = some s ∧
    s.Promised ∧ s.mHandler.isSome = true ∧ ¬ s.Running := by
  refine ⟨_, rfl, .inr (.inl rfl), rfl, ?_⟩
  rintro ⟨h, stored, started⟩
  obtain rfl := Option.some.inj stored
  revert started
  decide

end CoUsb.Ev

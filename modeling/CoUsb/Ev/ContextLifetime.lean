import CoUsb.Ev.CurrentHandler
import CoUsb.Lib.Log

/-!
# The contexts a service exits

`init_context` exits the old context whatever runs on it; the destructor stops the handler first.
-/

namespace CoUsb.Ev

variable {s s' : State} {e : Operation} {es : List Operation} {type : HandlerType} {built : Bool} {launch : Launch}
  {log more : List Action} {h : Nat} {ctx : Option Nat} {r : Int}

/-- Handler `h` was started on the context, and its `stop()` has not returned since. -/
def RunsOn (log : List Action) (h : Nat) (ctx : Option Nat) : Prop :=
  Log.Since (fun a => ∃ i, a = .start h ctx i true) (· = .stop h) log

/-- No context is exited while a handler runs on it. -/
def SparesRunning (log : List Action) : Prop :=
  Log.Always (fun before a => ∀ ctx, a = .exit ctx → ∀ h, ¬ RunsOn before h ctx) log

def ExitsOnce (log : List Action) : Prop := ∀ c, log.count (.exit (some c)) ≤ 1

/-- The stored handler was started on the current context and not stopped. -/
def State.Occupied (s : State) : Prop :=
  ∃ x c i, s.mHandler = some x ∧ x.joinable = true ∧ s.mUsbCtx = some c ∧ .start x.id (some c) i true ∈ s.log

/-- A call with a successful `libusb_init` of its own. -/
def Operation.inits : Operation → Bool
  | .initContext r | .makeContext r _ _ _ => r == 0
  | _ => false

/-- No initialisation while the stored handler runs on the current context. -/
def InitsIdle (s : State) (e : Operation) : Prop := e.inits = true → ¬ s.Occupied

/-- Where a call that does not return stands. -/
def blocked (s : State) : Operation → State
  | .makeContext r _ _ _ => (initContext s r).1
  | _ => s

/-- The state after a call, or where it blocks. -/
def reached (s : State) (e : Operation) : State := (machine.step s e).getD (if s.alive then blocked s e else s)

/-- A handler is started or stopped. -/
def Action.turns : Action → Bool
  | .start _ _ _ ok => ok
  | .stop _ => true
  | _ => false

def Action.exits : Action → Bool
  | .exit _ => true
  | _ => false

theorem runsOn_append (quiet : ∀ a ∈ more, a.turns = false) : RunsOn (log ++ more) h ctx ↔ RunsOn log h ctx := by
  apply Log.since_append_iff
  intro a member
  have same := quiet a member
  constructor
  · rintro ⟨i, rfl⟩
    cases same
  · rintro rfl
    cases same

theorem RunsOn.started (runs : RunsOn log h ctx) : ∃ i, .start h ctx i true ∈ log := by
  obtain ⟨_, member, i, rfl⟩ := Log.Since.mem runs
  exact ⟨i, member⟩

theorem start_of_append (quiet : ∀ a ∈ more, a.turns = false) {i : Nat} (member : .start h ctx i true ∈ log ++ more) :
    .start h ctx i true ∈ log := by
  rcases List.mem_append.mp member with old | new
  · exact old
  · cases quiet _ new

theorem spares_append (quiet : ∀ a ∈ more, a.exits = false) : SparesRunning (log ++ more) ↔ SparesRunning log := by
  apply Log.always_append_iff
  rintro before a member ctx rfl
  cases quiet _ member

theorem spares_exit : SparesRunning (log ++ [.exit ctx]) ↔ SparesRunning log ∧ ∀ h, ¬ RunsOn log h ctx := by
  refine Log.always_concat.trans (and_congr_right fun _ => ⟨fun spares => spares ctx rfl, ?_⟩)
  rintro free ctx' same
  exact Action.exit.inj same ▸ free

theorem exit_of_append (quiet : ∀ a ∈ more, a.exits = false) (member : .exit ctx ∈ log ++ more) : .exit ctx ∈ log := by
  rcases List.mem_append.mp member with old | new
  · exact old
  · cases quiet _ new

theorem exitsOnce_append (quiet : ∀ a ∈ more, a.exits = false) (once : ExitsOnce log) : ExitsOnce (log ++ more) := by
  intro c
  have none : more.count (.exit (some c)) = 0 := by
    apply List.count_eq_zero.mpr
    intro member
    cases quiet _ member
  rw [List.count_append, none]
  exact once c

theorem exitsOnce_exit (once : ExitsOnce log) (first : ∀ c, ctx = some c → .exit (some c) ∉ log) :
    ExitsOnce (log ++ [.exit ctx]) := by
  intro c
  rw [List.count_append]
  by_cases same : ctx = some c
  · rw [List.count_eq_zero.mpr (first c same), same]
    simp
  · have none : [Action.exit ctx].count (.exit (some c)) = 0 := by simpa [List.count_cons] using same
    rw [none]
    exact once c

/-! ### What every call keeps -/

/-- What runs is the stored handler, started once. -/
structure Tended (s : State) : Prop where
  running : ∀ h ctx, RunsOn s.log h ctx → ∃ x, s.mHandler = some x ∧ x.id = h ∧ x.joinable = true
  joined : ∀ x, s.mHandler = some x → x.joinable = true →
    ∀ ctx i, .start x.id ctx i true ∈ s.log → RunsOn s.log x.id ctx
  unstarted : s.mStarted = false → ∀ h ctx i, .start h ctx i true ∉ s.log

/-- The current context is not exited, and the old ones once. -/
structure Owned (s : State) : Prop where
  context : ∀ c, s.mUsbCtx = some c → c < s.nextContext
  exited : ∀ c, .exit (some c) ∈ s.log → c < s.nextContext ∧ (s.alive = true → s.mUsbCtx ≠ some c)
  once : ExitsOnce s.log

theorem occupied_iff (tended : Tended s) : s.Occupied ↔ ∃ h c, s.mUsbCtx = some c ∧ RunsOn s.log h (some c) := by
  constructor
  · rintro ⟨x, c, i, stored, joinable, current, member⟩
    exact ⟨x.id, c, current, tended.joined x stored joinable _ i member⟩
  · rintro ⟨h, c, current, runs⟩
    obtain ⟨x, stored, rfl, joinable⟩ := tended.running h _ runs
    obtain ⟨i, member⟩ := runs.started
    exact ⟨x, c, i, stored, joinable, current, member⟩

theorem not_runsOn (tended : Tended s) (idle : ∀ x, s.mHandler = some x → x.joinable = false) :
    ¬ RunsOn s.log h ctx := by
  intro runs
  obtain ⟨x, stored, _, joinable⟩ := tended.running h ctx runs
  cases joinable.symm.trans (idle x stored)

/-- The handler stays as it was. -/
structure Still (s s' : State) : Prop where
  handler : s'.mHandler.map (fun x => (x.id, x.joinable)) = s.mHandler.map fun x => (x.id, x.joinable)
  started : s'.mStarted = s.mStarted
  log : ∃ more, s'.log = s.log ++ more ∧ ∀ a ∈ more, a.turns = false

theorem Still.stored (still : Still s s') {x : Handler} (now : s'.mHandler = some x) :
    ∃ y, s.mHandler = some y ∧ y.id = x.id ∧ y.joinable = x.joinable := by
  have same := still.handler
  rw [now] at same
  obtain ⟨y, before, same⟩ := Option.map_eq_some_iff.mp same.symm
  obtain ⟨id, joinable⟩ := Prod.mk.inj same
  exact ⟨y, before, id, joinable⟩

theorem Still.stays (still : Still s s') {y : Handler} (before : s.mHandler = some y) :
    ∃ x, s'.mHandler = some x ∧ x.id = y.id ∧ x.joinable = y.joinable := by
  have same := still.handler
  rw [before] at same
  obtain ⟨x, now, same⟩ := Option.map_eq_some_iff.mp same
  obtain ⟨id, joinable⟩ := Prod.mk.inj same
  exact ⟨x, now, id, joinable⟩

theorem Still.tended (still : Still s s') (tended : Tended s) : Tended s' := by
  obtain ⟨more, same, turns⟩ := still.log
  refine ⟨fun h ctx runs => ?_, fun x now joinable ctx i member => ?_, fun idle h ctx i member => ?_⟩
  · rw [same, runsOn_append turns] at runs
    obtain ⟨y, before, rfl, joinable⟩ := tended.running h ctx runs
    obtain ⟨x, now, id, kept⟩ := still.stays before
    exact ⟨x, now, id, kept.trans joinable⟩
  · obtain ⟨y, before, id, kept⟩ := still.stored now
    rw [same] at member ⊢
    rw [runsOn_append turns, ← id]
    rw [← id] at member
    exact tended.joined y before (kept.trans joinable) ctx i (start_of_append turns member)
  · rw [same] at member
    exact tended.unstarted (still.started.symm.trans idle) h ctx i (start_of_append turns member)

/-- A call, or a part of one, that exits nothing. -/
structure Calm (s s' : State) : Prop where
  tended : Tended s → Tended s'
  context : s'.mUsbCtx = s.mUsbCtx
  alive : s'.alive = s.alive
  nextContext : s'.nextContext = s.nextContext
  log : ∃ more, s'.log = s.log ++ more ∧ ∀ a ∈ more, a.exits = false

namespace Calm

theorem refl (s : State) : Calm s s := ⟨id, rfl, rfl, rfl, [], by simp⟩

theorem trans {s₁ s₂ s₃ : State} (first : Calm s₁ s₂) (second : Calm s₂ s₃) : Calm s₁ s₃ := by
  obtain ⟨more, log, exits⟩ := first.log
  obtain ⟨rest, log', exits'⟩ := second.log
  refine ⟨second.tended ∘ first.tended, second.context.trans first.context, second.alive.trans first.alive,
    second.nextContext.trans first.nextContext, more ++ rest, ?_, fun a member => ?_⟩
  · rw [log', log, List.append_assoc]
  · exact (List.mem_append.mp member).elim (exits a) (exits' a)

theorem spares (calm : Calm s s') : SparesRunning s'.log ↔ SparesRunning s.log := by
  obtain ⟨more, same, exits⟩ := calm.log
  rw [same]
  exact spares_append exits

theorem owned (calm : Calm s s') (owned : Owned s) : Owned s' := by
  obtain ⟨more, same, exits⟩ := calm.log
  refine ⟨fun c current => ?_, fun c member => ?_, ?_⟩
  · rw [calm.nextContext]
    exact owned.context c (calm.context.symm.trans current)
  · rw [same] at member
    rw [calm.nextContext, calm.context, calm.alive]
    exact owned.exited c (exit_of_append exits member)
  · rw [same]
    exact exitsOnce_append exits owned.once

end Calm

/-! ### The parts of a call -/

theorem RefsOnly.calm (refs : RefsOnly s s') : Calm s s' := by
  obtain ⟨more, log, unrefs⟩ := refs.log
  have silent : ∀ a ∈ more, a.turns = false ∧ a.exits = false := by
    intro a member
    obtain ⟨_, _, rfl⟩ := unrefs a member
    exact ⟨rfl, rfl⟩
  have still : Still s s' := by
    refine ⟨?_, refs.started, more, log, fun a member => (silent a member).1⟩
    have same := congrArg (Option.map fun x : Handler => (x.id, x.joinable)) refs.handler
    rw [Option.map_map, Option.map_map] at same
    exact same
  exact ⟨still.tended, refs.context, refs.alive, refs.nextContext, more, log, fun a member => (silent a member).2⟩

theorem calm_of_same (log : s'.log = s.log) (handler : s'.mHandler = s.mHandler) (context : s'.mUsbCtx = s.mUsbCtx)
    (started : s'.mStarted = s.mStarted) (alive : s'.alive = s.alive) (nextContext : s'.nextContext = s.nextContext) :
    Calm s s' := by
  have still : Still s s' := ⟨by rw [handler], started, [], by simpa using log, by simp⟩
  exact ⟨still.tended, context, alive, nextContext, [], by simpa using log, by simp⟩

theorem calm_returned (s : State) (result : Result) : Calm s { s with returned := result } :=
  calm_of_same rfl rfl rfl rfl rfl rfl

theorem calm_requested (s : State) : Calm s { s with mStop := { s.mStop with requested := true } } :=
  calm_of_same rfl rfl rfl rfl rfl rfl

theorem calm_requestStop (s : State) : Calm s (requestStop s) := by
  have still : Still s (requestStop s) := ⟨rfl, rfl, _, rfl, by simp [Action.turns]⟩
  exact ⟨still.tended, rfl, rfl, rfl, _, rfl, by simp [Action.exits]⟩

theorem stopHandler_idle (h : stopHandler s = some s') : ∀ x, s'.mHandler = some x → x.joinable = false := by
  intro y now
  obtain ⟨empty, rfl⟩ | ⟨x, _, _, rfl⟩ := stopHandler_cases h
  · cases empty.symm.trans now
  · exact Option.some.inj now ▸ rfl

theorem calm_stopHandler (h : stopHandler s = some s') : Calm s s' := by
  obtain ⟨_, rfl⟩ | ⟨x, stored, _, rfl⟩ := stopHandler_cases h
  · exact .refl s'
  · refine ⟨fun tended => ⟨fun h ctx runs => ?_, fun y now joinable => ?_, fun idle h ctx i member => ?_⟩,
      rfl, rfl, rfl, _, rfl, by simp [Action.exits]⟩
    · obtain ⟨_, opened⟩ | ⟨runs, other⟩ := Log.since_concat.mp runs
      · cases opened
      · obtain ⟨y, found, rfl, _⟩ := tended.running h ctx runs
        obtain rfl := Option.some.inj (stored.symm.trans found)
        exact absurd rfl other
    · obtain rfl := Option.some.inj now
      cases joinable
    · exact tended.unstarted idle h ctx i (by simpa using member)

theorem calm_shutdown (h : shutdown s = some s') : Calm s s' := (calm_requested s).trans (calm_stopHandler h)

theorem calm_replaced (idle : ∀ x, s.mHandler = some x → x.joinable = false)
    (fresh : ∀ x, s'.mHandler = some x → x.joinable = false) (context : s'.mUsbCtx = s.mUsbCtx)
    (started : s'.mStarted = s.mStarted) (alive : s'.alive = s.alive) (nextContext : s'.nextContext = s.nextContext)
    (log : ∃ more, s'.log = s.log ++ more ∧ ∀ a ∈ more, a.turns = false ∧ a.exits = false) : Calm s s' := by
  obtain ⟨more, same, silent⟩ := log
  have turns : ∀ a ∈ more, a.turns = false := fun a member => (silent a member).1
  refine ⟨fun tended => ⟨fun h ctx runs => ?_, fun x now joinable => ?_, fun idle h ctx i member => ?_⟩,
    context, alive, nextContext, more, same, fun a member => (silent a member).2⟩
  · rw [same, runsOn_append turns] at runs
    exact absurd runs (not_runsOn tended idle)
  · cases joinable.symm.trans (fresh x now)
  · rw [same] at member
    exact tended.unstarted (started.symm.trans idle) h ctx i (start_of_append turns member)

theorem calm_destroyHandler (idle : ∀ x, s.mHandler = some x → x.joinable = false) : Calm s (destroyHandler s) := by
  unfold destroyHandler
  split
  · exact .refl s
  · exact calm_replaced idle (by simp) rfl rfl rfl rfl ⟨_, rfl, by simp [Action.turns, Action.exits]⟩

theorem calm_emplace (idle : ∀ x, s.mHandler = some x → x.joinable = false) : Calm s (emplace s type built) := by
  have empty : (destroyHandler s).mHandler = none := by
    unfold destroyHandler
    split <;> simp_all
  have destroyed := calm_destroyHandler idle
  unfold emplace
  cases built with
  | false => exact destroyed
  | true =>
    apply destroyed.trans
    exact calm_replaced (by simp [empty]) (by simp) rfl rfl rfl rfl ⟨_, rfl, by simp [Action.turns, Action.exits]⟩

theorem calm_emplaceHandler (h : emplaceHandler s type built = some s') : Calm s s' := by
  unfold emplaceHandler at h
  split at h
  · split at h
    · cases h
    · rename_i t stopped
      obtain rfl := Option.some.inj h
      apply ((calm_requested s).trans (calm_stopHandler stopped)).trans
      have reset : Calm t { t with mStop := ⟨t.nextSource, false⟩, nextSource := t.nextSource + 1 } :=
        calm_of_same rfl rfl rfl rfl rfl rfl
      have idle := stopHandler_idle stopped
      exact reset.trans (calm_emplace idle)
  case isFalse empty =>
    obtain rfl := Option.some.inj h
    apply calm_emplace
    intro x stored
    simp [stored] at empty

theorem calm_started (idle : s.mStarted = false) (x : Handler) :
    Calm s { s with mHandler := some { x with joinable := true }, mStarted := true,
                    log := s.log ++ [.start x.id s.mUsbCtx s.mStop.id true] } := by
  refine ⟨fun tended => ⟨fun h ctx runs => ?_, fun y now _ ctx i member => ?_, fun now => ?_⟩,
    rfl, rfl, rfl, _, rfl, by simp [Action.exits]⟩
  · obtain ⟨i, opened⟩ | ⟨runs, _⟩ := Log.since_concat.mp runs
    · obtain ⟨same, _⟩ := Action.start.inj opened
      exact ⟨_, rfl, same, rfl⟩
    · obtain ⟨i, member⟩ := RunsOn.started runs
      exact absurd member (tended.unstarted idle h ctx i)
  · obtain rfl := Option.some.inj now
    rcases List.mem_append.mp member with old | new
    · exact absurd old (tended.unstarted idle _ _ _)
    · exact Log.since_concat.mpr (.inl ⟨i, (List.mem_singleton.mp new).symm⟩)
  · cases now

theorem calm_start (s : State) (launch : Launch) : Calm s (start s launch).1 := by
  rcases start_cases s launch with same | ⟨idle, x, _, same | same⟩
  · rw [same]
    exact .refl s
  · rw [same]
    have still : Still s { s with log := s.log ++ [.start x.id s.mUsbCtx s.mStop.id false] } :=
      ⟨rfl, rfl, _, rfl, by simp [Action.turns]⟩
    exact ⟨still.tended, rfl, rfl, rfl, _, rfl, by simp [Action.exits]⟩
  · rw [same]
    exact calm_started idle x

theorem calm_emplaceAndStart {result : Result} (h : emplaceAndStart s type built launch result = some s') :
    Calm s s' := by
  unfold emplaceAndStart at h
  split at h
  · cases h
  · rename_i t emplaced
    apply (calm_emplaceHandler emplaced).trans
    split at h
    · have refs := (refs_newRef t).trans (refs_dropRef (newRef t) t.nextRef)
      have started := refs.calm.trans (calm_start (dropRef (newRef t) t.nextRef) launch)
      split at h
      all_goals
        rename_i launched
        rw [launched] at started
        exact Option.some.inj h ▸ started.trans (calm_returned _ _)
    · exact Option.some.inj h ▸ calm_returned t _

/-! ### The calls that exit -/

/-- A successful initialisation exits the current context. -/
theorem initContext_spares (tended : Tended s) (owned : Owned s) (alive : s.alive = true) :
    Tended (initContext s 0).1 ∧ Owned (initContext s 0).1 ∧
      (SparesRunning (initContext s 0).1.log ↔ SparesRunning s.log ∧ ¬ s.Occupied) := by
  obtain ⟨context, exited, once⟩ := owned
  have init : ∀ a ∈ [Action.init s.nextContext], a.turns = false ∧ a.exits = false := by
    simp [Action.turns, Action.exits]
  have turns := fun a member => (init a member).1
  have exits := fun a member => (init a member).2
  have next : ∀ c, some s.nextContext = some c → c < s.nextContext + 1 := by
    intro c same
    exact Option.some.inj same ▸ Nat.lt_succ_self _
  have older : ∀ c, .exit (some c) ∈ s.log →
      c < s.nextContext + 1 ∧ (s.alive = true → some s.nextContext ≠ some c) := by
    intro c member
    have before := (exited c member).1
    refine ⟨by omega, fun _ same => ?_⟩
    have same := Option.some.inj same
    omega
  have spares : SparesRunning (s.log ++ [.init s.nextContext]) ↔ SparesRunning s.log := spares_append exits
  have still : Still s (initContext s 0).1 := by
    unfold initContext
    cases s.mUsbCtx with
    | none => exact ⟨rfl, rfl, _, List.append_assoc .., by simp [Action.turns]⟩
    | some old => exact ⟨rfl, rfl, _, List.append_assoc .., by simp [Action.turns]⟩
  refine ⟨still.tended tended, ?_⟩
  rw [occupied_iff tended]
  unfold initContext
  cases current : s.mUsbCtx with
  | none =>
    simp only [ne_eq, not_true_eq_false, if_false, List.append_nil]
    refine ⟨⟨next, fun c member => older c (exit_of_append exits member), exitsOnce_append exits once⟩, ?_⟩
    simp [spares]
  | some old =>
    simp only [ne_eq, not_true_eq_false, if_false]
    have unexited : .exit (some old) ∉ s.log ++ [.init s.nextContext] := by
      intro member
      exact (exited old (exit_of_append exits member)).2 alive current
    refine ⟨⟨next, fun c member => ?_, exitsOnce_exit (exitsOnce_append exits once) ?_⟩, ?_⟩
    · rcases List.mem_append.mp member with before | new
      · exact older c (exit_of_append exits before)
      · obtain rfl := Option.some.inj (Action.exit.inj (List.mem_singleton.mp new))
        have before := context c current
        exact ⟨before.trans (Nat.lt_succ_self _), fun _ same => before.ne' (Option.some.inj same)⟩
    · rintro c same
      exact Option.some.inj same ▸ unexited
    · rw [spares_exit, spares]
      simp only [runsOn_append turns, Option.some.injEq, exists_eq_left', not_exists]

theorem destruct_spares (tended : Tended s) (owned : Owned s) (alive : s.alive = true) (h : destruct s = some s') :
    Tended s' ∧ Owned s' ∧ (SparesRunning s'.log ↔ SparesRunning s.log) := by
  obtain ⟨t, stopped, rfl⟩ := Option.map_eq_some_iff.mp h
  have calm := calm_shutdown stopped
  have idle := stopHandler_idle stopped
  have tended := calm.tended tended
  obtain ⟨context, exited, once⟩ := calm.owned owned
  have unexited : ∀ c, t.mUsbCtx = some c → .exit (some c) ∉ t.log := by
    intro c current member
    exact (exited c member).2 (calm.alive.trans alive) current
  have still : Still t { t with alive := false, log := t.log ++ [.exit t.mUsbCtx] } :=
    ⟨rfl, rfl, _, rfl, by simp [Action.turns]⟩
  have destroyed : Calm { t with alive := false, log := t.log ++ [.exit t.mUsbCtx] } _ := calm_destroyHandler idle
  refine ⟨destroyed.tended (still.tended tended), destroyed.owned ⟨context, fun c member => ⟨?_, by simp⟩,
    exitsOnce_exit once unexited⟩, destroyed.spares.trans ?_⟩
  · rcases List.mem_append.mp member with old | new
    · exact (exited c old).1
    · exact context c (Action.exit.inj (List.mem_singleton.mp new)).symm
  · exact spares_exit.trans ((and_iff_left fun h => not_runsOn tended idle).trans calm.spares)

theorem init_spares (tended : Tended s) (owned : Owned s) (alive : s.alive = true) (r : Int) :
    Tended (initContext s r).1 ∧ Owned (initContext s r).1 ∧
      (SparesRunning (initContext s r).1.log ↔ SparesRunning s.log ∧ ((r == 0) = true → ¬ s.Occupied)) := by
  by_cases done : r = 0
  · subst done
    simpa using initContext_spares tended owned alive
  · rw [initContext_failed done]
    exact ⟨tended, owned, by simp [done]⟩

/-- A call keeps the invariants, and exits a context a handler runs on only where it initialises another. -/
structure Kept (s : State) (e : Operation) (s' : State) : Prop where
  tended : Tended s'
  owned : Owned s'
  spares : SparesRunning s'.log ↔ SparesRunning s.log ∧ InitsIdle s e

theorem Kept.calm {t : State} (kept : Kept s e s') (calm : Calm s' t) : Kept s e t :=
  ⟨calm.tended kept.tended, calm.owned kept.owned, calm.spares.trans kept.spares⟩

theorem Calm.kept (calm : Calm s s') (tended : Tended s) (owned : Owned s) (none : e.inits = false) : Kept s e s' := by
  refine ⟨calm.tended tended, calm.owned owned, calm.spares.trans (and_iff_left fun inits => ?_).symm⟩
  cases none.symm.trans inits

theorem makeContext_kept {result failure : Result} (kept : Kept s e (initContext s r).1)
    (h : (match initContext s r with
      | (s, ec) =>
        if ec.isError then some { s with returned := failure } else emplaceAndStart s type built launch result) =
      some s') : Kept s e s' := by
  split at h
  rename_i t ec init
  rw [init] at kept
  split at h
  · exact Option.some.inj h ▸ kept.calm (calm_returned t _)
  · exact kept.calm (calm_emplaceAndStart h)

theorem call_kept (tended : Tended s) (owned : Owned s) (alive : s.alive = true) (h : call s e = some s') :
    Kept s e s' := by
  cases e with
  | initContext r =>
    obtain ⟨tended, owned, spares⟩ := init_spares tended owned alive r
    have kept : Kept s (.initContext r) (initContext s r).1 := ⟨tended, owned, spares⟩
    exact Option.some.inj h ▸ kept.calm (calm_returned _ _)
  | emplaceHandler type built =>
    simp only [call, Option.ite_none_right_eq_some, Option.map_eq_some_iff] at h
    obtain ⟨_, t, emplaced, rfl⟩ := h
    have calm := calm_emplaceHandler emplaced
    cases built with
    | true => exact ((calm.trans (refs_newRef t).calm).trans (calm_returned _ _)).kept tended owned rfl
    | false => exact (calm.trans (calm_returned _ _)).kept tended owned rfl
  | start launch =>
    have calm := calm_start s launch
    simp only [call] at h
    split at h
    all_goals
      rename_i launched
      rw [launched] at calm
      exact Option.some.inj h ▸ (calm.trans (calm_returned _ _)).kept tended owned rfl
  | requestStop =>
    exact Option.some.inj h ▸ ((calm_requestStop s).trans (calm_returned _ _)).kept tended owned rfl
  | shutdown =>
    obtain ⟨t, stopped, rfl⟩ := Option.map_eq_some_iff.mp h
    exact ((calm_shutdown stopped).trans (calm_returned _ _)).kept tended owned rfl
  | destruct =>
    obtain ⟨t, ended, rfl⟩ := Option.map_eq_some_iff.mp h
    obtain ⟨tended, owned, spares⟩ := destruct_spares tended owned alive ended
    have kept : Kept s .destruct t :=
      ⟨tended, owned, spares.trans (and_iff_left (by simp [InitsIdle, Operation.inits])).symm⟩
    exact kept.calm (calm_returned _ _)
  | makeContext r type built launch =>
    simp only [call, Option.ite_none_right_eq_some] at h
    obtain ⟨tended, owned, spares⟩ := init_spares tended owned alive r
    exact makeContext_kept ⟨tended, owned, spares⟩ h.2
  | getHandlerService r built launch =>
    simp only [call, getHandlerService, Option.ite_none_right_eq_some] at h
    obtain ⟨_, h⟩ := h
    split at h
    · exact Option.some.inj h ▸ (calm_returned s _).kept tended owned rfl
    case isFalse idle =>
      have free : ¬ s.Occupied := by
        rintro ⟨x, c, i, _, _, _, member⟩
        exact tended.unstarted (Bool.not_eq_true _ ▸ idle) _ _ _ member
      obtain ⟨tended', owned', spares⟩ := init_spares tended owned alive r
      exact makeContext_kept ⟨tended', owned', by simp [spares, free, InitsIdle]⟩ h
  | handler | copy | move | copyAssign | moveAssign | drop =>
    obtain ⟨t, result, refs, rfl⟩ := call_refs h rfl
    exact (refs.calm.trans (calm_returned _ _)).kept tended owned rfl

theorem tended_initial : Tended {} := by
  refine ⟨fun h ctx runs => absurd runs Log.not_since_nil, ?_, ?_⟩
  · intro x stored
    cases stored
  · simp

theorem owned_initial : Owned {} := ⟨by simp, by simp, fun c => Nat.zero_le _⟩

/-- What is reached by a run keeps the invariants, and spares every running handler exactly when each
initialisation does. -/
theorem spares_run (h : machine.run {} es = some s) :
    (Tended s ∧ Owned s) ∧ (SparesRunning s.log ↔ machine.Meets InitsIdle {} es) := by
  refine Machine.meets_iff (I := fun s => Tended s ∧ Owned s) (P := fun s => SparesRunning s.log) ?_
    ⟨tended_initial, owned_initial⟩ Log.always_nil h
  rintro s e s' ⟨tended, owned⟩ step
  obtain ⟨alive, called⟩ := step_call step
  obtain ⟨tended, owned, spares⟩ := call_kept tended owned alive called
  exact ⟨⟨tended, owned⟩, spares⟩

theorem gone_run (h : machine.run {} es = some s) (dead : s.alive = false) : s.mHandler = none := by
  refine Machine.run_invariant (I := fun s => s.alive = false → s.mHandler = none) ?_ (by simp) h dead
  intro s e s' _ step dead
  obtain ⟨alive, called⟩ := step_call step
  obtain rfl | same := call_alive called
  · obtain ⟨t, ended, rfl⟩ := Option.map_eq_some_iff.mp called
    obtain ⟨u, _, rfl⟩ := Option.map_eq_some_iff.mp ended
    show (destroyHandler _).mHandler = none
    unfold destroyHandler
    split <;> simp_all
  · cases dead.symm.trans (same.trans alive)

/-- Where the last call stands: returned, or blocked in the `stop()` of a handler. -/
theorem reached_kept (h : machine.run {} es = some s) (e : Operation) : Kept s e (reached s e) := by
  obtain ⟨tended, owned⟩ := (spares_run h).1
  cases alive : s.alive with
  | false =>
    have same : reached s e = s := by simp [reached, machine, step, alive]
    rw [same]
    refine ⟨tended, owned, (and_iff_left ?_).symm⟩
    rintro _ ⟨x, _, _, stored, _⟩
    cases (gone_run h alive).symm.trans stored
  | true =>
    have next : machine.step s e = call s e := by simp [machine, step, alive]
    cases returns : call s e with
    | some t =>
      have same : reached s e = t := by simp [reached, next, returns]
      rw [same]
      exact call_kept tended owned alive returns
    | none =>
      have same : reached s e = blocked s e := by simp [reached, next, returns, alive]
      rw [same]
      cases e with
      | makeContext r type built launch =>
        obtain ⟨tended, owned, spares⟩ := init_spares tended owned alive r
        exact ⟨tended, owned, spares⟩
      | initContext r => cases returns
      | _ => exact (Calm.refl s).kept tended owned rfl

/-- Whatever the last call, which may block, no context is exited under a running handler and none is exited twice
exactly when no initialisation came while the stored handler was running on the current context. -/
theorem contexts_spared_iff (h : machine.run {} es = some s) (e : Operation) :
    SparesRunning (reached s e).log ∧ ExitsOnce (reached s e).log ↔ machine.Meets InitsIdle {} (es ++ [e]) := by
  obtain ⟨_, owned, spares⟩ := reached_kept h e
  rw [and_iff_left owned.once, spares, (spares_run h).2, Machine.meets_concat_iff h]

theorem contexts_spared_iff_shutdown : ∃ s, machine.run {} [.makeContext 0 .refcounted true .yes, .shutdown] = some s ∧
    SparesRunning (reached s (.initContext 0)).log ∧ ExitsOnce (reached s (.initContext 0)).log := by
  have h : ∃ s, machine.run {} [.makeContext 0 .refcounted true .yes, .shutdown] = some s ∧
      s.mHandler.map (·.joinable) = some false := ⟨_, rfl, rfl⟩
  obtain ⟨s, h, stopped⟩ := h
  refine ⟨s, h, (contexts_spared_iff h (.initContext 0)).mpr ((Machine.meets_concat_iff h).mpr ⟨?_, ?_⟩)⟩
  · refine Machine.meets_cons.mpr ⟨?_, fun t _ => Machine.meets_cons.mpr ⟨?_, fun u _ => Machine.meets_nil⟩⟩
    · rintro _ ⟨x, _, _, stored, _⟩
      cases stored
    · exact fun inits => nomatch inits
  · rintro _ ⟨x, _, _, stored, joinable, _⟩
    simp [stored, joinable] at stopped

/-- A second `make_context` exits the first context under the first handler. -/
theorem makeContext_exits : ∃ s, machine.run {} [.makeContext 0 .refcounted true .yes] = some s ∧
    ¬ SparesRunning (reached s (.makeContext 0 .refcounted true .yes)).log := by
  have h : ∃ s, machine.run {} [.makeContext 0 .refcounted true .yes] = some s ∧
      [.init 0, .construct 0, .unref 0 1, .start 0 (some 0) 0 true, .init 1] ++ [.exit (some 0)] <+:
        (reached s (.makeContext 0 .refcounted true .yes)).log := ⟨_, rfl, by decide⟩
  obtain ⟨s, h, initial⟩ := h
  refine ⟨s, h, fun spares => ?_⟩
  have running : RunsOn [.init 0, .construct 0, .unref 0 1, .start 0 (some 0) 0 true, .init 1] 0 (some 0) :=
    ⟨[.init 0, .construct 0, .unref 0 1], .start 0 (some 0) 0 true, [.init 1], rfl, ⟨0, rfl⟩, by simp⟩
  exact spares _ _ initial (some 0) rfl 0 running

end CoUsb.Ev

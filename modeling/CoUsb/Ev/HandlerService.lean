import Mathlib.Data.Finset.Card
import CoUsb.ErrorCode
import CoUsb.Lib.Machine

/-!
# The handler service

`handler_service` with the `any_event_handler` it stores and the `event_handler_ref`s it
hands out. One event is one call, which returns or throws; a call that blocks for ever in
`stop()` of a handler has no successor.
-/

namespace CoUsb.Ev

inductive HandlerType where
  | trivial | refcounted | custom
  deriving DecidableEq, Repr

/-- A handler in the storage of `any_event_handler`. -/
structure Handler where
  id : Nat
  type : HandlerType
  /-- `m_counter` -/
  counter : Nat := 0
  /-- `m_thread.joinable()` -/
  joinable : Bool := false
  deriving DecidableEq, Repr

namespace Handler

def ref (h : Handler) : Handler :=
  match h.type with
  | .refcounted => { h with counter := sizeT (h.counter + 1) }
  | .trivial | .custom => h

def unref (h : Handler) : Handler :=
  match h.type with
  | .refcounted => { h with counter := Word.sub 64 h.counter 1 }
  | .trivial | .custom => h

/-- A handler without its counter. -/
def uncounted (h : Handler) : Handler := { h with counter := 0 }

/-- Whether `stop()` returns once stop was requested. -/
def canStop (h : Handler) : Bool := !(h.joinable && h.type == .refcounted && h.counter != 0)

@[simp] theorem uncounted_ref (h : Handler) : h.ref.uncounted = h.uncounted := by unfold ref; split <;> rfl
@[simp] theorem uncounted_unref (h : Handler) : h.unref.uncounted = h.uncounted := by unfold unref; split <;> rfl
@[simp] theorem ref_id (h : Handler) : h.ref.id = h.id := by unfold ref; split <;> rfl
@[simp] theorem unref_id (h : Handler) : h.unref.id = h.id := by unfold unref; split <;> rfl
@[simp] theorem ref_type (h : Handler) : h.ref.type = h.type := by unfold ref; split <;> rfl
@[simp] theorem unref_type (h : Handler) : h.unref.type = h.type := by unfold unref; split <;> rfl

end Handler

structure StopSource where
  id : Nat
  requested : Bool := false
  deriving DecidableEq, Repr

inductive Action where
  | init (ctx : Nat)
  | exit (ctx : Option Nat)
  | interrupt (ctx : Option Nat)
  | construct (h : Nat)
  | destroy (h : Nat)
  /-- `start` of handler `h` with a context and a token of source `stop` returned `ok`. -/
  | start (h : Nat) (ctx : Option Nat) (stop : Nat) (ok : Bool)
  | stop (h : Nat)
  /-- `unref` of handler `h` found the counter at `before`. -/
  | unref (h : Nat) (before : Nat)
  deriving DecidableEq, Repr

/-- How a handler's own `start` ends. -/
inductive Launch where
  | yes | no | throws
  deriving DecidableEq, Repr

/-- What the last call returned. -/
inductive Result where
  | none | code (ec : ErrorCode) | flag (b : Bool) | reference | context | service | threw
  deriving DecidableEq, Repr

structure State where
  mHandler : Option Handler := none
  mStop : StopSource := ⟨0, false⟩
  mUsbCtx : Option Nat := none
  mStarted : Bool := false
  alive : Bool := true
  /-- The live references with `m_original` set, and those without. -/
  valid : Finset Nat := ∅
  null : Finset Nat := ∅
  nextContext : Nat := 0
  nextHandler : Nat := 0
  nextSource : Nat := 1
  nextRef : Nat := 0
  returned : Result := .none
  log : List Action := []

inductive Operation where
  | initContext (r : Int)
  | emplaceHandler (type : HandlerType) (built : Bool)
  | start (launch : Launch)
  | requestStop
  | shutdown
  | destruct
  | makeContext (r : Int) (type : HandlerType) (built : Bool) (launch : Launch)
  | getHandlerService (r : Int) (built : Bool) (launch : Launch)
  | handler
  | copy (r : Nat)
  | move (r : Nat)
  | copyAssign (a b : Nat)
  | moveAssign (a b : Nat)
  | drop (r : Nat)
  deriving DecidableEq, Repr

variable (s : State)

/-! ### References -/

/-- `any_event_handler::ref` -/
def refHandler : State := { s with mHandler := s.mHandler.map Handler.ref }

/-- `any_event_handler::unref` -/
def unrefHandler : State :=
  match s.mHandler with
  | some h => { s with mHandler := some h.unref, log := s.log ++ [.unref h.id h.counter] }
  | none => s

/-- A new reference to the service's handler. -/
def newRef : State :=
  refHandler { s with valid := insert s.nextRef s.valid, nextRef := s.nextRef + 1 }

def copyRef (r : Nat) : State :=
  if r ∈ s.valid then newRef s
  else { s with null := insert s.nextRef s.null, nextRef := s.nextRef + 1 }

def moveRef (r : Nat) : State :=
  if r ∈ s.valid then
    { s with
      valid := insert s.nextRef (s.valid.erase r), null := insert r s.null, nextRef := s.nextRef + 1 }
  else { s with null := insert s.nextRef s.null, nextRef := s.nextRef + 1 }

/-- `if (m_original) unref();` of the assignments, which leaves `a` unset. -/
def clearRef (a : Nat) : State :=
  if a ∈ s.valid then unrefHandler { s with valid := s.valid.erase a, null := insert a s.null } else s

def copyAssign (a b : Nat) : State :=
  if a = b then s
  else
    let s := clearRef s a
    if b ∈ s.valid then refHandler { s with valid := insert a s.valid, null := s.null.erase a } else s

def moveAssign (a b : Nat) : State :=
  if a = b then s
  else
    let s := clearRef s a
    if b ∈ s.valid then
      { s with valid := insert a (s.valid.erase b), null := insert b (s.null.erase a) }
    else s

def dropRef (r : Nat) : State :=
  let s := clearRef s r
  { s with null := s.null.erase r }

/-! ### The calls -/

/-- Both overloads; `r` is what `libusb_init` or `libusb_init_context` returns. -/
def initContext (r : Int) : State × ErrorCode :=
  if r ≠ 0 then (s, makeUsbErrorCode r)
  else
    let exits := match s.mUsbCtx with
      | some old => [.exit (some old)]
      | none => []
    ({ s with
      mUsbCtx := some s.nextContext
      nextContext := s.nextContext + 1
      log := s.log ++ [.init s.nextContext] ++ exits }, {})

/-- `any_event_handler::stop`; `none` when it does not return. -/
def stopHandler : Option State :=
  match s.mHandler with
  | none => some s
  | some h =>
    if h.canStop then
      some { s with mHandler := some { h with joinable := false }, log := s.log ++ [.stop h.id] }
    else none

def destroyHandler : State :=
  match s.mHandler with
  | none => s
  | some h => { s with mHandler := none, log := s.log ++ [.destroy h.id] }

/-- `any_event_handler::emplace`; not `built` when the allocation or the constructor throws. -/
def emplace (type : HandlerType) (built : Bool) : State :=
  let s := destroyHandler s
  if built then
    { s with
      mHandler := some { id := s.nextHandler, type }
      nextHandler := s.nextHandler + 1
      log := s.log ++ [.construct s.nextHandler] }
  else s

/-- `emplace_handler` up to the reference it returns. -/
def emplaceHandler (type : HandlerType) (built : Bool) : Option State :=
  if s.mHandler.isSome then
    match stopHandler { s with mStop := { s.mStop with requested := true } } with
    | none => none
    | some s =>
      some (emplace { s with mStop := ⟨s.nextSource, false⟩, nextSource := s.nextSource + 1 } type built)
  else some (emplace s type built)

def requestStop : State :=
  { s with mStop := { s.mStop with requested := true }, log := s.log ++ [.interrupt s.mUsbCtx] }

/-- `any_event_handler::start`; `none` when the handler's own `start` throws. -/
def startHandler (launch : Launch) : State × Option Bool :=
  match s.mHandler with
  | none => (s, some false)
  | some h =>
    match launch with
    | .throws => (s, none)
    | .yes =>
      ({ s with
        mHandler := some { h with joinable := true }
        log := s.log ++ [.start h.id s.mUsbCtx s.mStop.id true] }, some true)
    | .no => ({ s with log := s.log ++ [.start h.id s.mUsbCtx s.mStop.id false] }, some false)

def start (launch : Launch) : State × Option Bool :=
  if s.mStarted then (s, some true)
  else
    match startHandler s launch with
    | (s, some ok) => ({ s with mStarted := ok }, some ok)
    | (s, none) => (s, none)

def shutdown : Option State := stopHandler { s with mStop := { s.mStop with requested := true } }

def destruct : Option State :=
  (shutdown s).map fun s =>
    destroyHandler { s with alive := false, log := s.log ++ [.exit s.mUsbCtx] }

/-- The handler part of `make_context` and `get_handler_service`; they drop the reference
`emplace_handler` returns. -/
def emplaceAndStart (type : HandlerType) (built : Bool) (launch : Launch) (result : Result) : Option State :=
  match emplaceHandler s type built with
  | none => none
  | some s =>
    if built then
      match start (dropRef (newRef s) s.nextRef) launch with
      | (s, some _) => some { s with returned := result }
      | (s, none) => some { s with returned := .threw }
    else some { s with returned := .threw }

/-- `make_context` and `make_context_with_options` with any error protocol. -/
def makeContext (r : Int) (type : HandlerType) (built : Bool) (launch : Launch) : Option State :=
  match initContext s r with
  | (s, ec) => if ec.isError then some { s with returned := .code ec } else emplaceAndStart s type built launch .context

def getHandlerService (r : Int) (built : Bool) (launch : Launch) : Option State :=
  if s.mStarted then some { s with returned := .service }
  else
    match initContext s r with
    | (s, ec) =>
      if ec.isError then some { s with returned := .threw }
      else emplaceAndStart s .refcounted built launch .service

/-- Whether there is room for another reference. -/
def hasRoom : Bool := s.valid.card + s.null.card + 1 < 2 ^ 64

def isLive (r : Nat) : Bool := r ∈ s.valid || r ∈ s.null

def call (s : State) : Operation → Option State
  | .initContext r =>
    let (s, ec) := initContext s r
    some { s with returned := .code ec }
  | .emplaceHandler type built =>
    if hasRoom s then
      (emplaceHandler s type built).map fun s =>
        if built then { newRef s with returned := .reference } else { s with returned := .threw }
    else none
  | .start launch =>
    match start s launch with
    | (s, some ok) => some { s with returned := .flag ok }
    | (s, none) => some { s with returned := .threw }
  | .requestStop => some { requestStop s with returned := .none }
  | .shutdown => (shutdown s).map fun s => { s with returned := .none }
  | .destruct => (destruct s).map fun s => { s with returned := .none }
  | .makeContext r type built launch => if hasRoom s then makeContext s r type built launch else none
  | .getHandlerService r built launch => if hasRoom s then getHandlerService s r built launch else none
  | .handler => if hasRoom s then some { newRef s with returned := .reference } else none
  | .copy r => if isLive s r && hasRoom s then some { copyRef s r with returned := .reference } else none
  | .move r => if isLive s r && hasRoom s then some { moveRef s r with returned := .reference } else none
  | .copyAssign a b => if isLive s a && isLive s b then some { copyAssign s a b with returned := .reference } else none
  | .moveAssign a b => if isLive s a && isLive s b then some { moveAssign s a b with returned := .reference } else none
  | .drop r => if isLive s r then some { dropRef s r with returned := .none } else none

def step (s : State) (e : Operation) : Option State := if s.alive then call s e else none

def machine : Machine State Operation := ⟨step⟩

section

variable {s s' : State} {e : Operation} {type : HandlerType} {built : Bool} {launch : Launch}

/-! ### References take and give back counts -/

/-- Only references change, and the counter of the stored handler. -/
structure RefsOnly (s s' : State) : Prop where
  handler : s'.mHandler.map Handler.uncounted = s.mHandler.map Handler.uncounted
  source : s'.mStop = s.mStop
  context : s'.mUsbCtx = s.mUsbCtx
  started : s'.mStarted = s.mStarted
  alive : s'.alive = s.alive
  nextContext : s'.nextContext = s.nextContext
  nextHandler : s'.nextHandler = s.nextHandler
  log : ∃ more, s'.log = s.log ++ more ∧ ∀ a ∈ more, ∃ h before, a = .unref h before

namespace RefsOnly

theorem refl (s : State) : RefsOnly s s := ⟨rfl, rfl, rfl, rfl, rfl, rfl, rfl, [], by simp⟩

theorem trans {s₁ s₂ s₃ : State} (first : RefsOnly s₁ s₂) (second : RefsOnly s₂ s₃) : RefsOnly s₁ s₃ := by
  obtain ⟨more, log, unrefs⟩ := first.log
  obtain ⟨rest, log', unrefs'⟩ := second.log
  refine ⟨second.handler.trans first.handler, second.source.trans first.source, second.context.trans first.context,
    second.started.trans first.started, second.alive.trans first.alive,
    second.nextContext.trans first.nextContext, second.nextHandler.trans first.nextHandler, more ++ rest, ?_, ?_⟩
  · rw [log', log, List.append_assoc]
  · intro a member
    exact (List.mem_append.mp member).elim (unrefs a) (unrefs' a)

end RefsOnly

theorem refs_refHandler (s : State) : RefsOnly s (refHandler s) := by
  refine ⟨?_, rfl, rfl, rfl, rfl, rfl, rfl, [], (List.append_nil _).symm, by simp⟩
  show (s.mHandler.map Handler.ref).map Handler.uncounted = _
  rw [Option.map_map]
  congr 1
  funext h
  exact Handler.uncounted_ref h

theorem refs_unrefHandler (s : State) : RefsOnly s (unrefHandler s) := by
  unfold unrefHandler
  split
  case h_1 h stored => exact ⟨by simp [stored], rfl, rfl, rfl, rfl, rfl, rfl, _, rfl, by simp⟩
  case h_2 => exact .refl s

theorem refs_moved (s : State) (valid null : Finset Nat) (next : Nat) :
    RefsOnly s { s with valid, null, nextRef := next } := ⟨rfl, rfl, rfl, rfl, rfl, rfl, rfl, [], by simp⟩

theorem refs_newRef (s : State) : RefsOnly s (newRef s) := (refs_moved s _ s.null _).trans (refs_refHandler _)

theorem refs_copyRef (s : State) (r : Nat) : RefsOnly s (copyRef s r) := by
  unfold copyRef
  split
  · exact refs_newRef s
  · exact refs_moved s s.valid _ _

theorem refs_moveRef (s : State) (r : Nat) : RefsOnly s (moveRef s r) := by
  unfold moveRef
  split <;> exact refs_moved s _ _ _

theorem refs_clearRef (s : State) (a : Nat) : RefsOnly s (clearRef s a) := by
  unfold clearRef
  split
  · exact (refs_moved s _ _ s.nextRef).trans (refs_unrefHandler _)
  · exact .refl s

theorem refs_copyAssign (s : State) (a b : Nat) : RefsOnly s (copyAssign s a b) := by
  unfold copyAssign
  split
  · exact .refl s
  · apply (refs_clearRef s a).trans
    dsimp only
    split
    · exact (refs_moved _ _ _ _).trans (refs_refHandler _)
    · exact .refl _

theorem refs_moveAssign (s : State) (a b : Nat) : RefsOnly s (moveAssign s a b) := by
  unfold moveAssign
  split
  · exact .refl s
  · apply (refs_clearRef s a).trans
    dsimp only
    split
    · exact refs_moved _ _ _ _
    · exact .refl _

theorem refs_dropRef (s : State) (r : Nat) : RefsOnly s (dropRef s r) :=
  (refs_clearRef s r).trans (refs_moved _ _ _ _)

/-- The calls on references. -/
def Operation.counts : Operation → Bool
  | .handler | .copy _ | .move _ | .copyAssign _ _ | .moveAssign _ _ | .drop _ => true
  | _ => false

theorem call_refs (h : call s e = some s') (counts : e.counts = true) :
    ∃ t result, RefsOnly s t ∧ s' = { t with returned := result } := by
  cases e with
  | handler | copy | move | copyAssign | moveAssign | drop =>
    simp only [call, Option.ite_none_right_eq_some] at h
    refine ⟨_, _, ?_, (Option.some.inj h.2).symm⟩
    first
      | exact refs_newRef s
      | exact refs_copyRef s _
      | exact refs_moveRef s _
      | exact refs_copyAssign s _ _
      | exact refs_moveAssign s _ _
      | exact refs_dropRef s _
  | _ => cases counts

theorem initContext_failed {r : Int} (failed : r ≠ 0) : initContext s r = (s, makeUsbErrorCode r) := if_pos failed

theorem start_cases (s : State) (launch : Launch) : (start s launch).1 = s ∨ s.mStarted = false ∧ ∃ x,
    s.mHandler = some x ∧
      ((start s launch).1 = { s with log := s.log ++ [.start x.id s.mUsbCtx s.mStop.id false] } ∨
        (start s launch).1 = { s with mHandler := some { x with joinable := true }, mStarted := true,
                                      log := s.log ++ [.start x.id s.mUsbCtx s.mStop.id true] }) := by
  rcases s with ⟨handler, stop, ctx, started, alive, valid, null, c, h, i, r, result, log⟩
  cases started <;> cases handler <;> cases launch <;> simp [start, startHandler]

theorem stopHandler_cases (h : stopHandler s = some s') : s.mHandler = none ∧ s' = s ∨ ∃ x,
    s.mHandler = some x ∧ x.canStop = true ∧
      s' = { s with mHandler := some { x with joinable := false }, log := s.log ++ [.stop x.id] } := by
  unfold stopHandler at h
  split at h
  case h_1 empty => exact Or.inl ⟨empty, (Option.some.inj h).symm⟩
  case h_2 x stored =>
    rw [Option.ite_none_right_eq_some] at h
    obtain ⟨allowed, same⟩ := h
    exact Or.inr ⟨x, stored, allowed, (Option.some.inj same).symm⟩

/-! ### The service lives until it is destructed -/

theorem stopHandler_alive (h : stopHandler s = some s') : s'.alive = s.alive := by
  obtain ⟨_, rfl⟩ | ⟨x, _, _, rfl⟩ := stopHandler_cases h
  · rfl
  · rfl

theorem emplace_alive (s : State) (type : HandlerType) (built : Bool) : (emplace s type built).alive = s.alive := by
  unfold emplace destroyHandler
  cases built <;> cases s.mHandler <;> rfl

theorem emplaceHandler_alive (h : emplaceHandler s type built = some s') : s'.alive = s.alive := by
  unfold emplaceHandler at h
  split at h
  · split at h
    · cases h
    · rename_i t stopped
      obtain rfl := Option.some.inj h
      have same := stopHandler_alive stopped
      exact (emplace_alive _ _ _).trans same
  · obtain rfl := Option.some.inj h
    exact emplace_alive s type built

@[simp] theorem start_alive (s : State) (launch : Launch) : (start s launch).1.alive = s.alive := by
  unfold start startHandler
  cases s.mStarted <;> cases s.mHandler <;> cases launch <;> rfl

theorem emplaceAndStart_alive {result : Result} (h : emplaceAndStart s type built launch result = some s') :
    s'.alive = s.alive := by
  unfold emplaceAndStart at h
  split at h
  · cases h
  · rename_i t emplaced
    have same := emplaceHandler_alive emplaced
    split at h
    · have started := start_alive (dropRef (newRef t) t.nextRef) launch
      split at h
      all_goals
        rename_i launched
        rw [launched] at started
        obtain rfl := Option.some.inj h
        show _ = s.alive
        rw [started, ((refs_newRef t).trans (refs_dropRef _ _)).alive, same]
    · obtain rfl := Option.some.inj h
      exact same

theorem initContext_alive (s : State) (r : Int) : (initContext s r).1.alive = s.alive := by
  unfold initContext
  split <;> rfl

theorem madeContext_alive {result failure : Result}
    (h : (match initContext s r with
      | (s, ec) =>
        if ec.isError then some { s with returned := failure } else emplaceAndStart s type built launch result) =
      some s') : s'.alive = s.alive := by
  have same := initContext_alive s r
  split at h
  rename_i t ec init
  rw [init] at same
  split at h
  · exact Option.some.inj h ▸ same
  · exact (emplaceAndStart_alive h).trans same

theorem call_alive (h : call s e = some s') : e = .destruct ∨ s'.alive = s.alive := by
  cases e with
  | initContext r =>
    exact .inr (Option.some.inj h ▸ initContext_alive s r)
  | destruct => exact .inl rfl
  | start launch =>
    have same := start_alive s launch
    simp only [call] at h
    split at h
    all_goals
      rename_i launched
      rw [launched] at same
      obtain rfl := Option.some.inj h
      exact .inr same
  | requestStop => exact .inr (Option.some.inj h ▸ rfl)
  | shutdown =>
    obtain ⟨t, stopped, rfl⟩ := Option.map_eq_some_iff.mp h
    have same := stopHandler_alive stopped
    exact .inr same
  | emplaceHandler type built =>
    simp only [call, Option.ite_none_right_eq_some, Option.map_eq_some_iff] at h
    obtain ⟨_, t, emplaced, rfl⟩ := h
    refine .inr (Eq.trans ?_ (emplaceHandler_alive emplaced))
    split <;> rfl
  | makeContext r type built launch =>
    simp only [call, makeContext, Option.ite_none_right_eq_some] at h
    exact .inr (madeContext_alive h.2)
  | getHandlerService r built launch =>
    simp only [call, getHandlerService, Option.ite_none_right_eq_some] at h
    obtain ⟨_, h⟩ := h
    split at h
    · exact .inr (Option.some.inj h ▸ rfl)
    · exact .inr (madeContext_alive h)
  | handler | copy | move | copyAssign | moveAssign | drop =>
    obtain ⟨t, result, refs, rfl⟩ := call_refs h rfl
    exact .inr refs.alive

theorem step_call (h : machine.step s e = some s') : s.alive = true ∧ call s e = some s' := by
  have h : (if s.alive then call s e else none) = some s' := h
  rwa [Option.ite_none_right_eq_some] at h

end

end CoUsb.Ev

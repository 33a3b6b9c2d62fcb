import CoUsb.Lib.Log
import CoUsb.Wrapper.Interface

/-!
# Handles, interfaces and driver guards in blocks

The automatic objects of a thread, in the order of their construction. A block destroys its objects in reverse, also
when an exception leaves it; the destructors of `interface` and `driver_guard` may throw, those of the standard library
may not.
-/

namespace CoUsb.Scope

inductive Object where
  /-- A `device_handle`. -/
  | handle (mStorage : Option Nat)
  /-- An `interface` or a `driver_guard`, by itself or `wrapped` in a `std::optional` or a `std::expected`. -/
  | guard (k : Guard.Class) (wrapped : Bool) (this : Guard)
  deriving DecidableEq, Repr

inductive Call where
  /-- `libusb_open` or `libusb_open_device_with_vid_pid` made the handle. -/
  | opens (devh : Nat)
  /-- `libusb_close` -/
  | close (devh : Nat)
  /-- `release` gave the handle out. -/
  | gives (devh : Nat)
  | guard (k : Guard.Class) (call : Guard.Call)
  deriving DecidableEq, Repr

/-- What `device_handle_of` makes of an object. -/
def Object.devh : Object → Option Nat
  | .handle mStorage => mStorage
  | .guard _ _ this => this.mDevh

/-! ### The operations -/

inductive Operation where
  /-- Either `open_device`; libusb makes a handle when `r` is 0. -/
  | openDevice (errp : ErrorProtocol) (r : Int)
  /-- `claim_interface` or `detach_driver` through an object. -/
  | acquire (k : Guard.Class) (errp : ErrorProtocol) (source : Nat) (interfaceNum : Int) (r : Int)
  /-- The new object may be `wrapped`. -/
  | moveConstruct (i : Nat) (wrapped : Bool)
  | moveAssign (a b : Nat) (r : Int)
  /-- `reset` or `close` of a handle. -/
  | reset (i : Nat)
  /-- `release` of a handle. -/
  | release (i : Nat)
  /-- `release` of an interface or `attach` of a guard. -/
  | giveUp (i : Nat) (r : Int)
  deriving DecidableEq, Repr

structure Done where
  objects : List Object
  calls : List Call := []
  thrown : Option ErrorCode := none

/-- A handle is named by the number of calls before the one that made it, as claims are. -/
def Operation.run (objects : List Object) (next : Nat) : Operation → Option Done
  | .openDevice errp r =>
    let reply : Reply Object := if r ≠ 0 then errp.withError (makeUsbErrorCode r) else errp.withSuccess (.handle next)
    some ⟨objects ++ reply.object.toList, if r = 0 then [.opens next] else [], reply.exception⟩
  | .acquire k errp source interfaceNum r => do
    let src ← objects[source]?
    -- libusb acquires nothing through a null handle
    if src.devh = none ∧ r = 0 then none
    else
      let (reply, calls) := k.acquire src.devh interfaceNum errp r next
      some ⟨objects ++ reply.object.toList.map (.guard k errp.wraps), calls.map (.guard k), reply.exception⟩
  | .moveConstruct i wrapped =>
    match objects[i]? with
    | some (.handle mStorage) => some { objects := objects.set i (.handle none) ++ [.handle mStorage] }
    | some (.guard k here other) =>
      let (this, left) := Guard.moveConstruct other
      some { objects := objects.set i (.guard k here left) ++ [.guard k wrapped this] }
    | none => none
  | .moveAssign a b r =>
    match objects[a]?, objects[b]? with
    | some (.handle this), some (.handle other) =>
      if a = b then some { objects }
      else some ⟨(objects.set a (.handle other)).set b (.handle none), this.toList.map .close, none⟩
    | some (.guard k at_a this), some (.guard k' at_b other) =>
      if k ≠ k' then none
      else if a = b then some { objects }
      else
        let assigned := k.moveAssign this other r
        some ⟨(objects.set a (.guard k at_a assigned.this)).set b (.guard k at_b assigned.other),
          assigned.calls.map (.guard k), assigned.thrown⟩
    | _, _ => none
  | .reset i =>
    match objects[i]? with
    | some (.handle mStorage) => some ⟨objects.set i (.handle none), mStorage.toList.map .close, none⟩
    | _ => none
  | .release i =>
    match objects[i]? with
    | some (.handle mStorage) => some ⟨objects.set i (.handle none), mStorage.toList.map .gives, none⟩
    | _ => none
  | .giveUp i r =>
    match objects[i]? with
    | some (.guard k wrapped this) =>
      let (left, _, calls) := k.giveUp this r {}
      some ⟨objects.set i (.guard k wrapped left), calls.map (.guard k), none⟩
    | _ => none

/-- The destructors: the exception thrown and the calls. -/
def Object.destroy (r : Int) : Object → Option ErrorCode × List Call
  | .handle mStorage => (none, mStorage.toList.map .close)
  | .guard k _ this =>
    let (thrown, calls) := k.destroy this r
    (thrown, calls.map (.guard k))

/-- No exception can leave the destruction of the object. -/
def Object.wrapped : Object → Bool
  | .handle _ => false
  | .guard _ wrapped _ => wrapped

/-! ### The machine -/

inductive Phase where
  | running
  /-- The objects from `mark` on are being destroyed, with the exception that is on its way. -/
  | leaving (exn : Option ErrorCode) (mark : Nat)
  /-- `std::terminate` -/
  | terminated
  deriving DecidableEq, Repr

structure State where
  objects : List Object := []
  phase : Phase := .running
  log : List Call := []

inductive Event where
  /-- An exception is caught where `handler` objects are left. -/
  | operation (op : Operation) (handler : Nat)
  /-- A block ends that began with `mark` objects. -/
  | leave (mark : Nat)
  /-- The last object is destroyed; a call of its destructor returns `r`. -/
  | destroy (r : Int) (handler : Nat)
  /-- The block is left, or the exception caught. -/
  | proceed
  deriving DecidableEq, Repr

/-- Where the destruction of an object leads, by the exception thrown. -/
def Phase.after (exn : Option ErrorCode) (mark handler : Nat) (wrapped : Bool) : Option ErrorCode → Phase
  | none => .leaving exn mark
  | some ec =>
    if wrapped then .terminated
    else
      match exn with
      | none => .leaving (some ec) (min handler mark)
      | some _ => .terminated

def step (s : State) (e : Event) : Option State :=
  match s.phase, e with
  | .running, .operation op handler => do
    let done ← op.run s.objects s.log.length
    some ⟨done.objects,
      match done.thrown with
      | none => .running
      | some ec => .leaving (some ec) (min handler done.objects.length),
      s.log ++ done.calls⟩
  | .running, .leave mark => some { s with phase := .leaving none (min mark s.objects.length) }
  | .leaving exn mark, .destroy r handler =>
    match s.objects.getLast? with
    | some object =>
      if mark < s.objects.length then
        let (thrown, calls) := object.destroy r
        some ⟨s.objects.dropLast, .after exn mark handler object.wrapped thrown, s.log ++ calls⟩
      else none
    | none => none
  | .leaving _ mark, .proceed => if s.objects.length = mark then some { s with phase := .running } else none
  | _, _ => none

def machine : Machine State Event := ⟨step⟩

/-! ### What an operation can do -/

/-- The call of `release`, `attach` or a destructor. -/
def undoing (k : Guard.Class) (this : Guard) (r : Int) : List Call :=
  this.mDevh.toList.map fun devh => .guard k ⟨k.undoes, some devh, this.mInterfaceNum, r, this.claim⟩

/-- What is left of a guard. -/
def emptied (this : Guard) : Guard := { this with mDevh := none }

variable {objects : List Object} {next : Nat} {op : Operation} {done : Done} {s s' : State} {e : Event} {r : Int}
  {k : Guard.Class} {this : Guard}

inductive Effect (objects : List Object) (next : Nat) : Operation → Done → Prop where
  | opens {errp : ErrorProtocol} :
      Effect objects next (.openDevice errp 0) ⟨objects ++ [.handle (some next)], [.opens next], none⟩
  | openFails {errp : ErrorProtocol} {r : Int} {thrown : Option ErrorCode} (failed : r ≠ 0) :
      Effect objects next (.openDevice errp r) ⟨objects, [], thrown⟩
  | acquires {k : Guard.Class} {errp : ErrorProtocol} {i devh : Nat} {interfaceNum : Int} {src : Object}
      (source : objects[i]? = some src) (held : src.devh = some devh) :
      Effect objects next (.acquire k errp i interfaceNum 0)
        ⟨objects ++ [.guard k errp.wraps ⟨some devh, interfaceNum, next⟩],
          [.guard k ⟨k.acquires, some devh, interfaceNum, 0, next⟩], none⟩
  | acquireFails {k : Guard.Class} {errp : ErrorProtocol} {i : Nat} {interfaceNum r : Int} {src : Object}
      {thrown : Option ErrorCode} (source : objects[i]? = some src) (failed : r ≠ 0) :
      Effect objects next (.acquire k errp i interfaceNum r)
        ⟨objects, [.guard k ⟨k.acquires, src.devh, interfaceNum, r, next⟩], thrown⟩
  | moveHandle {i : Nat} {wrapped : Bool} {mStorage : Option Nat} (here : objects[i]? = some (.handle mStorage)) :
      Effect objects next (.moveConstruct i wrapped) ⟨objects.set i (.handle none) ++ [.handle mStorage], [], none⟩
  | moveGuard {i : Nat} {k : Guard.Class} {here wrapped : Bool} {other : Guard}
      (source : objects[i]? = some (.guard k here other)) :
      Effect objects next (.moveConstruct i wrapped)
        ⟨objects.set i (.guard k here (emptied other)) ++ [.guard k wrapped other], [], none⟩
  | assignSelf {a : Nat} {r : Int} : Effect objects next (.moveAssign a a r) ⟨objects, [], none⟩
  | assignHandle {a b : Nat} {r : Int} {this other : Option Nat} (target : objects[a]? = some (.handle this))
      (source : objects[b]? = some (.handle other)) (apart : a ≠ b) :
      Effect objects next (.moveAssign a b r)
        ⟨(objects.set a (.handle other)).set b (.handle none), this.toList.map .close, none⟩
  | assignGuard {a b : Nat} {r : Int} {k : Guard.Class} {at_a at_b : Bool} {this other : Guard}
      (target : objects[a]? = some (.guard k at_a this)) (source : objects[b]? = some (.guard k at_b other))
      (apart : a ≠ b) (undone : r = 0 ∨ this.mDevh = none) :
      Effect objects next (.moveAssign a b r)
        ⟨(objects.set a (.guard k at_a other)).set b (.guard k at_b (emptied other)), undoing k this r, none⟩
  | assignThrows {a b : Nat} {r : Int} {k : Guard.Class} {at_a at_b : Bool} {this other : Guard} {ec : ErrorCode}
      (target : objects[a]? = some (.guard k at_a this)) (source : objects[b]? = some (.guard k at_b other))
      (apart : a ≠ b) (failed : r ≠ 0) (held : this.mDevh ≠ none) :
      Effect objects next (.moveAssign a b r)
        ⟨objects.set a (.guard k at_a (emptied this)), undoing k this r, some ec⟩
  | reset {i : Nat} {mStorage : Option Nat} (here : objects[i]? = some (.handle mStorage)) :
      Effect objects next (.reset i) ⟨objects.set i (.handle none), mStorage.toList.map .close, none⟩
  | release {i : Nat} {mStorage : Option Nat} (here : objects[i]? = some (.handle mStorage)) :
      Effect objects next (.release i) ⟨objects.set i (.handle none), mStorage.toList.map .gives, none⟩
  | giveUp {i : Nat} {r : Int} {k : Guard.Class} {wrapped : Bool} {this : Guard}
      (here : objects[i]? = some (.guard k wrapped this)) :
      Effect objects next (.giveUp i r) ⟨objects.set i (.guard k wrapped (emptied this)), undoing k this r, none⟩

theorem giveUp_undoing (k : Guard.Class) (this : Guard) (r : Int) (ec : ErrorCode) :
    (k.giveUp this r ec).1 = emptied this ∧ (k.giveUp this r ec).2.2.map (Call.guard k) = undoing k this r ∧
      (k.giveUp this r ec).2.1 = if this.mDevh ≠ none ∧ r ≠ 0 then makeUsbErrorCode r else ec := by
  rw [Guard.Class.giveUp_eq]
  unfold Guard.giveUp undoing emptied
  cases held : this.mDevh with
  | none => simp [← held]
  | some devh => simp

theorem assign_undoing (k : Guard.Class) (this other : Guard) (r : Int) :
    ((r = 0 ∨ this.mDevh = none) ∧ (k.moveAssign this other r).this = other ∧
      (k.moveAssign this other r).other = emptied other ∧ (k.moveAssign this other r).thrown = none ∨
    (r ≠ 0 ∧ this.mDevh ≠ none) ∧ (k.moveAssign this other r).this = emptied this ∧
      (k.moveAssign this other r).other = other ∧ (k.moveAssign this other r).thrown = some (makeUsbErrorCode r)) ∧
    (k.moveAssign this other r).calls.map (Call.guard k) = undoing k this r := by
  rw [Guard.Class.moveAssign_eq]
  unfold Guard.moveAssign Guard.giveUp undoing emptied
  cases held : this.mDevh with
  | none => simp
  | some devh =>
    by_cases failed : r = 0
    · simp [failed]
    · simp [failed, ErrorCode.isError, makeUsbErrorCode]

theorem run_effect (h : op.run objects next = some done) : Effect objects next op done := by
  cases op with
  | openDevice errp r =>
    obtain rfl := Option.some.inj h
    by_cases failed : r = 0
    · subst failed
      simp only [ne_eq, not_true_eq_false, if_false, object_withSuccess, Option.toList_some, if_true]
      cases errp <;> exact .opens
    · simp only [ne_eq, failed, not_false_eq_true, if_true, object_withError, Option.toList_none, List.append_nil,
        if_false]
      exact .openFails failed
  | acquire k errp i interfaceNum r =>
    obtain ⟨src, source, h⟩ := Option.bind_eq_some_iff.mp h
    rw [Option.ite_none_left_eq_some, Guard.Class.acquire_eq] at h
    obtain ⟨possible, h⟩ := h
    by_cases failed : r = 0
    · subst failed
      obtain ⟨devh, held⟩ := Option.ne_none_iff_exists'.mp fun none => possible ⟨none, rfl⟩
      rw [held] at h
      obtain rfl := Option.some.inj h
      cases errp <;> exact .acquires source held
    · have reply : Guard.acquire k.acquires src.devh interfaceNum errp r next =
          (errp.withError (makeUsbErrorCode r), [⟨k.acquires, src.devh, interfaceNum, r, next⟩]) := if_pos failed
      rw [reply] at h
      simp only [object_withError, Option.toList_none, List.map_nil, List.append_nil] at h
      exact Option.some.inj h ▸ .acquireFails source failed
  | moveConstruct i wrapped =>
    simp only [Operation.run] at h
    split at h
    case h_1 here => exact Option.some.inj h ▸ .moveHandle here
    case h_2 here => exact Option.some.inj h ▸ .moveGuard here
    case h_3 => cases h
  | moveAssign a b r =>
    simp only [Operation.run] at h
    split at h
    case h_1 target source =>
      split at h
      case isTrue same => exact Option.some.inj h ▸ same ▸ .assignSelf
      case isFalse apart => exact Option.some.inj h ▸ .assignHandle target source apart
    case h_2 k at_a this k' at_b other target source =>
      rw [Option.ite_none_left_eq_some] at h
      obtain ⟨kind, h⟩ := h
      obtain rfl := not_not.mp kind
      split at h
      case isTrue same => exact Option.some.inj h ▸ same ▸ .assignSelf
      case isFalse apart =>
        obtain rfl := Option.some.inj h
        obtain ⟨assigned, calls⟩ := assign_undoing k this other r
        rw [calls]
        rcases assigned with ⟨undone, this', other', thrown⟩ | ⟨⟨failed, held⟩, this', other', thrown⟩
        · rw [this', other', thrown]
          exact .assignGuard target source apart undone
        · obtain ⟨inside, found⟩ := List.getElem?_eq_some_iff.mp source
          have again : (objects.set a (.guard k at_a (emptied this))).set b (.guard k at_b other) =
              objects.set a (.guard k at_a (emptied this)) := by
            rw [List.set_comm _ _ apart, ← found, List.set_getElem_self]
          rw [this', other', thrown, again]
          exact .assignThrows target source apart failed held
    case h_3 => cases h
  | reset i | release i =>
    simp only [Operation.run] at h
    split at h
    case h_1 here =>
      obtain rfl := Option.some.inj h
      constructor
      exact here
    case h_2 => cases h
  | giveUp i r =>
    simp only [Operation.run] at h
    split at h
    case h_1 k wrapped this here =>
      obtain ⟨left, calls, _⟩ := giveUp_undoing k this r {}
      rw [left, calls] at h
      exact Option.some.inj h ▸ .giveUp here
    case h_2 => cases h

/-! ### What a step can do -/

/-- The calls of a destructor. -/
def Object.undone (r : Int) : Object → List Call
  | .handle mStorage => mStorage.toList.map .close
  | .guard k _ this => undoing k this r

/-- The exception of a destructor. -/
def Object.throws (r : Int) : Object → Option ErrorCode
  | .handle _ => none
  | .guard _ _ this => if this.mDevh ≠ none ∧ r ≠ 0 then some (makeUsbErrorCode r) else none

theorem destroy_eq (object : Object) (r : Int) : object.destroy r = (object.throws r, object.undone r) := by
  cases object with
  | handle => rfl
  | guard k wrapped this =>
    obtain ⟨_, calls, ec⟩ := giveUp_undoing k this r {}
    rw [Guard.Class.giveUp_eq] at calls ec
    simp only [Object.destroy, Guard.Class.destroy_eq, Guard.destroy, calls, ec, Object.throws, Object.undone]
    by_cases failed : this.mDevh ≠ none ∧ r ≠ 0
    · simp [failed, ErrorCode.isError, makeUsbErrorCode]
    · simp [failed]

inductive Step (s : State) : Event → State → Prop where
  | operation {op : Operation} {handler : Nat} {done : Done} {phase : Phase} (running : s.phase = .running)
      (effect : Effect s.objects s.log.length op done)
      (next : phase = match done.thrown with
        | none => .running
        | some ec => .leaving (some ec) (min handler done.objects.length)) :
      Step s (.operation op handler) ⟨done.objects, phase, s.log ++ done.calls⟩
  | leave {mark : Nat} (running : s.phase = .running) :
      Step s (.leave mark) { s with phase := .leaving none (min mark s.objects.length) }
  | destroy {r : Int} {exn : Option ErrorCode} {mark handler : Nat} {rest : List Object} {object : Object}
      (leaving : s.phase = .leaving exn mark) (last : s.objects = rest ++ [object]) (deep : mark ≤ rest.length) :
      Step s (.destroy r handler)
        ⟨rest, .after exn mark handler object.wrapped (object.throws r), s.log ++ object.undone r⟩
  | proceed {exn : Option ErrorCode} (leaving : s.phase = .leaving exn s.objects.length) :
      Step s .proceed { s with phase := .running }

theorem step_cases (h : machine.step s e = some s') : Step s e s' := by
  replace h : step s e = some s' := h
  unfold step at h
  split at h
  case h_1 op handler running =>
    obtain ⟨done, run, h⟩ := Option.bind_eq_some_iff.mp h
    exact Option.some.inj h ▸ .operation running (run_effect run) rfl
  case h_2 mark running => exact Option.some.inj h ▸ .leave running
  case h_3 exn mark r handler leaving =>
    split at h
    case h_1 object found =>
      rw [Option.ite_none_right_eq_some, destroy_eq] at h
      obtain ⟨deep, h⟩ := h
      obtain ⟨rest, last⟩ := List.getLast?_eq_some_iff.mp found
      rw [last, List.length_append, List.length_singleton] at deep
      rw [last, List.dropLast_concat] at h
      exact Option.some.inj h ▸ .destroy leaving last (by omega)
    case h_2 => cases h
  case h_4 exn mark leaving =>
    rw [Option.ite_none_right_eq_some] at h
    obtain ⟨rfl, h⟩ := h
    exact Option.some.inj h ▸ .proceed leaving
  case h_5 => cases h

end CoUsb.Scope

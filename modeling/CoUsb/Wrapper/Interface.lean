import CoUsb.Lib.Account
import CoUsb.Lib.Machine
import CoUsb.Wrapper.ErrorProtocol
import Mathlib.Logic.Function.Basic

/-!
# `interface` and `driver_guard`

Any number of claims of interfaces and detachments of kernel drivers, and the objects that undo them. The two
classes are the same but for the functions of libusb they call.
-/

namespace CoUsb

namespace Guard

inductive Function where
  | claimInterface | releaseInterface | detachKernelDriver | attachKernelDriver
  deriving DecidableEq, Repr

inductive Class where
  | interface | driverGuard
  deriving DecidableEq, Repr

def Class.acquires : Class → Function
  | .interface => .claimInterface
  | .driverGuard => .detachKernelDriver

def Class.undoes : Class → Function
  | .interface => .releaseInterface
  | .driverGuard => .attachKernelDriver

/-- A call into libusb and what it returned. Calls that acquire are numbered by `claim`, and those that undo have the
number of the call they undo; libusb sees neither. -/
structure Call where
  function : Function
  devh : Option Nat
  interfaceNum : Int
  result : Int
  claim : Nat
  deriving DecidableEq, Repr

end Guard

/-- The fields of `interface` and `driver_guard`, and the number of the call that `m_devh` stems from, which goes where
`m_devh` goes. -/
structure Guard where
  mDevh : Option Nat
  mInterfaceNum : Int
  claim : Nat
  deriving DecidableEq, Repr

namespace Guard

/-! ### The operations -/

/-- `release` and `attach`: what is left of the object, the error code and the calls. -/
def giveUp (undoes : Function) (this : Guard) (r : Int) (ec : ErrorCode) : Guard × ErrorCode × List Call :=
  match this.mDevh with
  | none => (this, ec, [])
  | some devh =>
    ({ this with mDevh := none }, if r ≠ 0 then makeUsbErrorCode r else ec,
      [⟨undoes, some devh, this.mInterfaceNum, r, this.claim⟩])

/-- The destructors: the exception thrown and the calls. -/
def destroy (undoes : Function) (this : Guard) (r : Int) : Option ErrorCode × List Call :=
  let (_, ec, calls) := giveUp undoes this r {}
  (if ec.isError then some ec else none, calls)

/-- The move constructors: the new object and what is left of the other. -/
def moveConstruct (other : Guard) : Guard × Guard :=
  (⟨other.mDevh, other.mInterfaceNum, other.claim⟩, { other with mDevh := none })

structure Assigned where
  this : Guard
  other : Guard
  thrown : Option ErrorCode
  calls : List Call

/-- Move assignment behind its test for self-assignment. -/
def moveAssign (undoes : Function) (this other : Guard) (r : Int) : Assigned :=
  let (this, ec, calls) := giveUp undoes this r {}
  if ec.isError then ⟨this, other, some ec, calls⟩
  else
    ⟨{ this with mDevh := other.mDevh, mInterfaceNum := other.mInterfaceNum, claim := other.claim },
      { other with mDevh := none }, none, calls⟩

/-- `claim_interface` and `detach_driver`, called as number `claim`. -/
def acquire (acquires : Function) (devh : Option Nat) (interfaceNum : Int) (errp : ErrorProtocol) (r : Int)
    (claim : Nat) : Reply Guard × List Call :=
  let call := ⟨acquires, devh, interfaceNum, r, claim⟩
  if r ≠ 0 then (errp.withError (makeUsbErrorCode r), [call])
  else (errp.withSuccess ⟨devh, interfaceNum, claim⟩, [call])

end Guard

namespace Interface

def claimInterface := Guard.acquire .claimInterface
def release := Guard.giveUp .releaseInterface
def destroy := Guard.destroy .releaseInterface
def moveAssign := Guard.moveAssign .releaseInterface

end Interface

namespace DriverGuard

def detachDriver := Guard.acquire .detachKernelDriver
def attach := Guard.giveUp .attachKernelDriver
def destroy := Guard.destroy .attachKernelDriver
def moveAssign := Guard.moveAssign .attachKernelDriver

end DriverGuard

namespace Guard

def Class.acquire : Class → Option Nat → Int → ErrorProtocol → Int → Nat → Reply Guard × List Call
  | .interface => Interface.claimInterface
  | .driverGuard => DriverGuard.detachDriver

def Class.giveUp : Class → Guard → Int → ErrorCode → Guard × ErrorCode × List Call
  | .interface => Interface.release
  | .driverGuard => DriverGuard.attach

def Class.destroy : Class → Guard → Int → Option ErrorCode × List Call
  | .interface => Interface.destroy
  | .driverGuard => DriverGuard.destroy

def Class.moveAssign : Class → Guard → Guard → Int → Assigned
  | .interface => Interface.moveAssign
  | .driverGuard => DriverGuard.moveAssign

/-! ### The machine -/

structure State where
  /-- The objects constructed so far, `none` once destroyed. -/
  objects : Class → List (Option Guard) := fun _ => []
  /-- The exception that left the last operation. -/
  thrown : Option ErrorCode := none
  log : List Call := []

/-- A `DeviceHandleSource`: a pointer, or an object that has one. -/
inductive Source where
  | pointer (devh : Option Nat)
  | object (k : Class) (a : Nat)
  deriving DecidableEq, Repr

inductive Event where
  /-- `claim_interface` or `detach_driver`, for which libusb returns `r`. -/
  | acquire (k : Class) (errp : ErrorProtocol) (source : Source) (interfaceNum : Int) (r : Int)
  | moveConstruct (k : Class) (other : Nat)
  | moveAssign (k : Class) (a other : Nat) (r : Int)
  /-- `release` or `attach` -/
  | giveUp (k : Class) (a : Nat) (r : Int)
  | destroy (k : Class) (a : Nat) (r : Int)
  deriving DecidableEq, Repr

namespace State

def live (s : State) (k : Class) (a : Nat) : Option Guard := ((s.objects k)[a]?).join

def deviceHandleOf (s : State) : Source → Option (Option Nat)
  | .pointer devh => some devh
  | .object k a => (s.live k a).map mDevh

def put (s : State) (k : Class) (objects : List (Option Guard)) (thrown : Option ErrorCode) (calls : List Call) :
    State :=
  { objects := Function.update s.objects k objects, thrown, log := s.log ++ calls }

end State

def step (s : State) : Event → Option State
  | .acquire k errp source interfaceNum r => do
    let devh ← s.deviceHandleOf source
    -- libusb acquires nothing through a null handle
    if devh = none ∧ r = 0 then none
    else
      let (reply, calls) := k.acquire devh interfaceNum errp r s.log.length
      some (s.put k (s.objects k ++ reply.object.toList.map some) reply.exception calls)
  | .moveConstruct k b => do
    let other ← s.live k b
    let (this, left) := moveConstruct other
    some (s.put k ((s.objects k).set b left ++ [some this]) none [])
  | .moveAssign k a b r => do
    let this ← s.live k a
    let other ← s.live k b
    if a = b then some { s with thrown := none }
    else
      let assigned := k.moveAssign this other r
      some (s.put k (((s.objects k).set a assigned.this).set b assigned.other) assigned.thrown assigned.calls)
  | .giveUp k a r => do
    let this ← s.live k a
    let (left, _, calls) := k.giveUp this r {}
    some (s.put k ((s.objects k).set a left) none calls)
  | .destroy k a r => do
    let this ← s.live k a
    let (thrown, calls) := k.destroy this r
    some (s.put k ((s.objects k).set a none) thrown calls)

def machine : Machine State Event := ⟨step⟩

/-! ### The law -/

/-- What a successful call leaves to be undone. -/
structure Duty where
  claim : Nat
  devh : Nat
  interfaceNum : Int
  deriving DecidableEq, Repr

def duty (this : Guard) : Option Duty := this.mDevh.map fun devh => ⟨this.claim, devh, this.mInterfaceNum⟩

def Call.duty (function : Function) (call : Call) : Option Duty :=
  if call.function = function then call.devh.map fun devh => ⟨call.claim, devh, call.interfaceNum⟩ else none

def Call.acquired (k : Class) (call : Call) : Option Duty := if call.result = 0 then call.duty k.acquires else none

/-- The successful claims or detachments. -/
def acquired (k : Class) (s : State) : List Duty := s.log.filterMap (Call.acquired k)

/-- The calls that release or attach, whether they succeed or not. -/
def undone (k : Class) (s : State) : List Duty := s.log.filterMap (Call.duty k.undoes)

def owned (object : Option Guard) : Option Duty := object.bind duty

/-- What the live objects hold. -/
def held (k : Class) (s : State) : List Duty := (s.objects k).filterMap owned

/-- What the object at `a` holds. -/
def State.owner (s : State) (k : Class) (a : Nat) : Option Duty := owned (s.live k a)

/-- The number of a call that acquires is its position. -/
def Numbered (k : Class) (log : List Call) : Prop :=
  ∀ (i : Nat) (call : Call), log[i]? = some call → call.function = k.acquires → call.claim = i

structure UndoneOnce (k : Class) (s : State) : Prop where
  numbered : Numbered k s.log
  /-- Undone by one call with the same pair, or held by one live object. -/
  once : ∀ d ∈ acquired k s, (undone k s).count d + (held k s).count d = 1
  /-- Nothing is undone or held without a successful call, in particular no failed one is undone. -/
  nothingElse : ∀ d ∈ undone k s ++ held k s, d ∈ acquired k s

/-- A move assignment that throws leaves the claim of the source where it was and none in the target. -/
def AssignmentSafe (k : Class) (s : State) : Prop :=
  ∀ a b r s', step s (.moveAssign k a b r) = some s' → s'.thrown ≠ none →
    s'.owner k b = s.owner k b ∧ s'.owner k a = none

/-! ### The account -/

def account (k : Class) (s : State) : Account Duty := ⟨acquired k s, undone k s, held k s⟩

structure Kept (k : Class) (s : State) : Prop where
  balanced : (account k s).Balanced
  numbered : Numbered k s.log

/-- The calls `calls` and the objects `objects` after them pass on what there was and what was acquired. -/
structure Conserves (k : Class) (s : State) (objects : List (Option Guard)) (calls : List Call) : Prop where
  functions : ∀ c ∈ calls, c.function = k.acquires ∨ c.function = k.undoes
  numbered : ∀ i c, calls[i]? = some c → c.function = k.acquires → c.claim = s.log.length + i
  even : (calls.filterMap (Call.acquired k) ++ held k s).Perm
    (calls.filterMap (Call.duty k.undoes) ++ objects.filterMap owned)

variable {k k' : Class} {s s' : State} {e : Event} {es : List Event} {this other : Guard} {a b : Nat} {r : Int}
  {objects : List (Option Guard)} {calls log : List Call} {thrown : Option ErrorCode}

@[simp] theorem Class.acquire_eq (k : Class) : k.acquire = Guard.acquire k.acquires := by cases k <;> rfl

@[simp] theorem Class.giveUp_eq (k : Class) : k.giveUp = Guard.giveUp k.undoes := by cases k <;> rfl

@[simp] theorem Class.destroy_eq (k : Class) : k.destroy = Guard.destroy k.undoes := by cases k <;> rfl

@[simp] theorem Class.moveAssign_eq (k : Class) : k.moveAssign = Guard.moveAssign k.undoes := by cases k <;> rfl

theorem acquires_ne_undoes (k k' : Class) : k.acquires ≠ k'.undoes := by
  cases k <;> cases k' <;> decide

theorem acquires_ne (other : k' ≠ k) : k.acquires ≠ k'.acquires := by
  cases k <;> cases k' <;> first | exact absurd rfl other | decide

theorem undoes_ne (other : k' ≠ k) : k.undoes ≠ k'.undoes := by
  cases k <;> cases k' <;> first | exact absurd rfl other | decide

theorem function_of_other {c : Call} (function : c.function = k.acquires ∨ c.function = k.undoes) (other : k' ≠ k) :
    c.function ≠ k'.acquires ∧ c.function ≠ k'.undoes := by
  rcases function with acquires | undoes
  · rw [acquires]
    exact ⟨acquires_ne other, acquires_ne_undoes k k'⟩
  · rw [undoes]
    exact ⟨(acquires_ne_undoes k' k).symm, undoes_ne other⟩

theorem acquired_eq_nil (functions : ∀ c ∈ calls, c.function ≠ k.acquires) :
    calls.filterMap (Call.acquired k) = [] := by
  apply List.filterMap_eq_nil_iff.mpr
  intro c member
  simp [Call.acquired, Call.duty, functions c member]

theorem undone_eq_nil (functions : ∀ c ∈ calls, c.function ≠ k.undoes) :
    calls.filterMap (Call.duty k.undoes) = [] := by
  apply List.filterMap_eq_nil_iff.mpr
  intro c member
  simp [Call.duty, functions c member]

theorem acquired_some {c : Call} {d : Duty} (made : c.acquired k = some d) :
    c.function = k.acquires ∧ c.claim = d.claim := by
  simp only [Call.acquired, Call.duty, Option.ite_none_right_eq_some] at made
  obtain ⟨_, function, made⟩ := made
  obtain ⟨devh, _, rfl⟩ := Option.map_eq_some_iff.mp made
  exact ⟨function, rfl⟩

theorem Numbered.lt (numbered : Numbered k log) {d : Duty} (member : d ∈ log.filterMap (Call.acquired k)) :
    d.claim < log.length := by
  obtain ⟨c, inside, made⟩ := List.mem_filterMap.mp member
  obtain ⟨i, found⟩ := List.mem_iff_getElem?.mp inside
  obtain ⟨function, claim⟩ := acquired_some made
  rw [← claim, numbered i c found function]
  exact (List.getElem?_eq_some_iff.mp found).1

theorem Numbered.distinct (numbered : Numbered k log) : (log.filterMap (Call.acquired k)).Nodup := by
  induction log using List.reverseRecOn with
  | nil => exact List.nodup_nil
  | append_singleton log c ih =>
    have earlier : Numbered k log := by
      intro i call found
      exact numbered i call ((List.getElem?_append_left (List.getElem?_eq_some_iff.mp found).1).trans found)
    rw [List.filterMap_append]
    cases made : c.acquired k with
    | none => simpa [made] using ih earlier
    | some d =>
      obtain ⟨function, claim⟩ := acquired_some made
      have last := numbered log.length c (by simp) function
      refine List.nodup_append.mpr ⟨ih earlier, by simp [made], ?_⟩
      rintro d' before d'' now rfl
      have lt := earlier.lt before
      simp only [List.filterMap_cons_some made, List.filterMap_nil, List.mem_singleton] at now
      rw [now] at lt
      omega

theorem Numbered.append (numbered : Numbered k log)
    (later : ∀ i c, calls[i]? = some c → c.function = k.acquires → c.claim = log.length + i) :
    Numbered k (log ++ calls) := by
  intro i c found function
  by_cases before : i < log.length
  · exact numbered i c ((List.getElem?_append_left before).symm.trans found) function
  · have behind := not_lt.mp before
    have claim := later (i - log.length) c ((List.getElem?_append_right behind).symm.trans found) function
    rwa [Nat.add_sub_of_le behind] at claim

theorem live_put : (s.put k objects thrown calls).live k a = (objects[a]?).join := by
  simp only [State.live, State.put, Function.update_self]

theorem account_put (k' : Class) : account k' (s.put k objects thrown calls) =
    ⟨acquired k' s ++ calls.filterMap (Call.acquired k'), undone k' s ++ calls.filterMap (Call.duty k'.undoes),
      (Function.update s.objects k objects k').filterMap owned⟩ := by
  simp only [account, acquired, undone, held, State.put, List.filterMap_append]

theorem Conserves.balanced (conserves : Conserves k s objects calls) (balanced : (account k s).Balanced) :
    (account k (s.put k objects thrown calls)).Balanced := by
  have moves : Account.Moves (account k s) (account k (s.put k objects thrown calls))
      (calls.filterMap (Call.acquired k)) (calls.filterMap (Call.duty k.undoes)) (held k s)
      (objects.filterMap owned) := by
    rw [account_put, Function.update_self]
    exact ⟨rfl, rfl, List.perm_append_comm⟩
  have operates := moves.operates conserves.even trivial
  exact (operates.keeps fun d => (balanced d).ge).2.mpr ⟨balanced, trivial⟩

theorem Conserves.kept (conserves : Conserves k s objects calls) (kept : ∀ k', Kept k' s) (k' : Class) :
    Kept k' (s.put k objects thrown calls) := by
  obtain ⟨balanced, numbered⟩ := kept k'
  by_cases same : k' = k
  · subst k'
    exact ⟨conserves.balanced balanced, numbered.append conserves.numbered⟩
  · have others : ∀ c ∈ calls, c.function ≠ k'.acquires ∧ c.function ≠ k'.undoes := fun c member =>
      function_of_other (conserves.functions c member) same
    have untouched : account k' (s.put k objects thrown calls) = account k' s := by
      rw [account_put, acquired_eq_nil fun c member => (others c member).1,
        undone_eq_nil fun c member => (others c member).2, Function.update_of_ne same, List.append_nil, List.append_nil]
      rfl
    refine ⟨untouched ▸ balanced, numbered.append fun i c found function => ?_⟩
    exact absurd function (others c (List.mem_of_getElem? found)).1

/-! ### One operation -/

/-- An object gives up what it holds by at most one call. -/
structure Gives (undoes : Function) (this left : Guard) (calls : List Call) : Prop where
  functions : ∀ c ∈ calls, c.function = undoes
  duties : calls.filterMap (Call.duty undoes) = this.duty.toList
  left : left.duty = none

theorem giveUp_gives (undoes : Function) (this : Guard) (r : Int) (ec : ErrorCode) :
    Gives undoes this (giveUp undoes this r ec).1 (giveUp undoes this r ec).2.2 := by
  unfold giveUp
  cases holds : this.mDevh with
  | none => exact ⟨by simp, by simp [duty, holds], by simp [duty, holds]⟩
  | some devh => exact ⟨by simp, by simp [duty, holds, Call.duty], rfl⟩

theorem live_at (live : s.live k a = some this) : (s.objects k)[a]? = some (some this) :=
  Option.join_eq_some_iff.mp live

theorem Gives.conserves {left : Guard} (gives : Gives k.undoes this left calls)
    (even : (held k s).Perm (this.duty.toList ++ objects.filterMap owned)) : Conserves k s objects calls := by
  have functions : ∀ c ∈ calls, c.function ≠ k.acquires := fun c member =>
    (gives.functions c member).trans_ne (acquires_ne_undoes k k).symm
  refine ⟨fun c member => Or.inr (gives.functions c member), fun i c found function => ?_, ?_⟩
  · exact absurd function (functions c (List.mem_of_getElem? found))
  · rw [acquired_eq_nil functions, gives.duties]
    exact even

theorem held_emptied {object : Option Guard} (live : s.live k a = some this) (empty : owned object = none) :
    (held k s).Perm (this.duty.toList ++ ((s.objects k).set a object).filterMap owned) := by
  have changed := Account.filterMap_set_perm (f := owned) (y := object) (live_at live)
  rw [empty, Option.toList_none, List.append_nil] at changed
  exact changed.symm.trans List.perm_append_comm

theorem conserves_acquire {devh : Option Nat} {interfaceNum : Int} {errp : ErrorProtocol}
    (possible : ¬ (devh = none ∧ r = 0)) : Conserves k s
      (s.objects k ++ (acquire k.acquires devh interfaceNum errp r s.log.length).1.object.toList.map some)
      (acquire k.acquires devh interfaceNum errp r s.log.length).2 := by
  have silent : k.acquires ≠ k.undoes := acquires_ne_undoes k k
  have calls : (acquire k.acquires devh interfaceNum errp r s.log.length).2 =
      [⟨k.acquires, devh, interfaceNum, r, s.log.length⟩] := by
    unfold acquire
    dsimp only
    split <;> rfl
  rw [calls]
  refine ⟨by simp, fun i c found _ => ?_, ?_⟩
  · cases i with
    | zero =>
      obtain rfl := Option.some.inj found
      rfl
    | succ i => cases found
  · by_cases failed : r = 0
    · obtain ⟨devh, rfl⟩ := Option.ne_none_iff_exists'.mp fun none => possible ⟨none, failed⟩
      simpa [acquire, failed, Call.acquired, Call.duty, silent, held, owned, duty] using
        (List.perm_append_singleton _ _).symm
    · simp [acquire, failed, Call.acquired, Call.duty, silent, held]

theorem conserves_moveConstruct (live : s.live k b = some other) :
    Conserves k s ((s.objects k).set b (moveConstruct other).2 ++ [some (moveConstruct other).1]) [] := by
  refine ⟨by simp, by simp, ?_⟩
  have moved : [some (moveConstruct other).1].filterMap owned = other.duty.toList := by
    cases holds : other.mDevh <;> simp [moveConstruct, owned, duty, holds]
  rw [List.filterMap_append, moved]
  exact (held_emptied live rfl).trans List.perm_append_comm

theorem set_again (source : s.live k b = some other) (different : a ≠ b) (object : Option Guard) :
    ((s.objects k).set a object).set b (some other) = (s.objects k).set a object := by
  obtain ⟨inside, found⟩ := List.getElem?_eq_some_iff.mp (live_at source)
  rw [List.set_comm _ _ different, ← found, List.set_getElem_self]

theorem held_moved {moved emptied : Guard} (live : s.live k a = some this) (source : s.live k b = some other)
    (different : a ≠ b) (taken : moved.duty = other.duty) (left : emptied.duty = none) :
    (held k s).Perm (this.duty.toList ++
      (((s.objects k).set a (some moved)).set b (some emptied)).filterMap owned) := by
  have exchanged := Account.filterMap_set_set_perm (f := owned) (v := some moved) (w := some emptied) (live_at live)
    (live_at source) different
  have same : owned (some moved) = owned (some other) := taken
  have empty : owned (some emptied) = none := left
  rw [same, empty, Option.toList_none, List.append_nil, ← List.append_assoc] at exchanged
  exact ((List.perm_append_right_iff _).mp exchanged).symm.trans List.perm_append_comm

/-- The target gives up what it holds before it takes what the source holds. -/
theorem conserves_moveAssign (live : s.live k a = some this) (source : s.live k b = some other) (different : a ≠ b) :
    Conserves k s
      (((s.objects k).set a (moveAssign k.undoes this other r).this).set b (moveAssign k.undoes this other r).other)
      (moveAssign k.undoes this other r).calls := by
  have gives := giveUp_gives k.undoes this r {}
  unfold moveAssign
  generalize giveUp k.undoes this r {} = given at gives
  obtain ⟨left, ec, calls⟩ := given
  dsimp only at gives ⊢
  split
  case isTrue =>
    rw [set_again source different]
    exact gives.conserves (held_emptied live gives.left)
  case isFalse =>
    exact gives.conserves (held_moved live source different rfl rfl)

theorem kept_step (kept : ∀ k, Kept k s) (h : machine.step s e = some s') (k : Class) : Kept k s' := by
  change step s e = some s' at h
  cases e with
  | acquire k' errp source interfaceNum r =>
    obtain ⟨devh, _, h⟩ := Option.bind_eq_some_iff.mp h
    simp only [Class.acquire_eq, Option.ite_none_left_eq_some] at h
    obtain ⟨possible, h⟩ := h
    obtain rfl := Option.some.inj h
    exact (conserves_acquire possible).kept kept k
  | moveConstruct k' b =>
    obtain ⟨other, live, h⟩ := Option.bind_eq_some_iff.mp h
    obtain rfl := Option.some.inj h
    exact (conserves_moveConstruct live).kept kept k
  | moveAssign k' a b r =>
    obtain ⟨this, live, h⟩ := Option.bind_eq_some_iff.mp h
    obtain ⟨other, source, h⟩ := Option.bind_eq_some_iff.mp h
    split at h
    case isTrue =>
      obtain rfl := Option.some.inj h
      exact ⟨(kept k).balanced, (kept k).numbered⟩
    case isFalse different =>
      rw [Class.moveAssign_eq] at h
      obtain rfl := Option.some.inj h
      exact (conserves_moveAssign live source different).kept kept k
  | giveUp k' a r =>
    obtain ⟨this, live, h⟩ := Option.bind_eq_some_iff.mp h
    rw [Class.giveUp_eq] at h
    obtain rfl := Option.some.inj h
    have gives := giveUp_gives k'.undoes this r {}
    have empty : owned (some (Guard.giveUp k'.undoes this r {}).1) = none := gives.left
    exact (gives.conserves (held_emptied live empty)).kept kept k
  | destroy k' a r =>
    obtain ⟨this, live, h⟩ := Option.bind_eq_some_iff.mp h
    rw [Class.destroy_eq] at h
    obtain rfl := Option.some.inj h
    have gives := giveUp_gives k'.undoes this r {}
    exact (gives.conserves (held_emptied live rfl)).kept kept k

/-! ### Runs -/

theorem kept_initial (k : Class) : Kept k {} := by
  refine ⟨fun d => rfl, fun i c found => ?_⟩
  cases found

theorem Kept.once (kept : Kept k s) : UndoneOnce k s := by
  obtain ⟨balanced, numbered⟩ := kept
  refine ⟨numbered, fun d member => ?_, fun d member => ?_⟩
  · have one : (acquired k s).count d = 1 := List.count_eq_one_of_mem numbered.distinct member
    exact (balanced d).symm.trans one
  · have some_count : 0 < (undone k s ++ held k s).count d := List.count_pos_iff.mpr member
    rw [List.count_append] at some_count
    exact List.count_pos_iff.mp (some_count.trans_eq (balanced d).symm)

/-- The target has given up its claim when the exception is thrown, and the source was not looked at. -/
theorem moveAssign_throws {undoes : Function} (thrown : (moveAssign undoes this other r).thrown ≠ none) :
    (moveAssign undoes this other r).other = other ∧ (moveAssign undoes this other r).this.duty = none := by
  have gives := giveUp_gives undoes this r {}
  unfold moveAssign at thrown ⊢
  generalize giveUp undoes this r {} = given at gives thrown
  obtain ⟨left, ec, calls⟩ := given
  dsimp only at gives thrown ⊢
  split at thrown
  case isTrue failed =>
    rw [if_pos failed]
    exact ⟨rfl, gives.left⟩
  case isFalse => exact absurd rfl thrown

theorem assignment_safe (k : Class) (s : State) : AssignmentSafe k s := by
  intro a b r s' h thrown
  obtain ⟨this, live, h⟩ := Option.bind_eq_some_iff.mp h
  obtain ⟨other, source, h⟩ := Option.bind_eq_some_iff.mp h
  split at h
  case isTrue =>
    obtain rfl := Option.some.inj h
    exact absurd rfl thrown
  case isFalse different =>
    rw [Class.moveAssign_eq] at h
    obtain rfl := Option.some.inj h
    obtain ⟨kept, empty⟩ := moveAssign_throws thrown
    rw [kept, set_again source different]
    constructor
    · rw [State.owner, live_put, List.getElem?_set_ne different]
      rfl
    · obtain ⟨inside, _⟩ := List.getElem?_eq_some_iff.mp (live_at live)
      rw [State.owner, live_put, List.getElem?_set_self inside]
      exact empty

/-- After every sequence of operations each successful claim or detachment was undone by one call with its pair or is
held by one live object, and an assignment that throws moves nothing. -/
theorem claims_undone_once (es : List Event) (s : State) (h : machine.run {} es = some s) (k : Class) :
    UndoneOnce k s ∧ AssignmentSafe k s := by
  have kept := Machine.run_invariant (I := fun s => ∀ k, Kept k s) (fun kept step => kept_step kept step)
    kept_initial h
  exact ⟨(kept k).once, assignment_safe k s⟩

/-- The second interface cannot be released when the first is assigned to its object, and is not released again. -/
theorem claims_undone_once_assigned :
    ∃ s, machine.run {} [.acquire .interface .asException (.pointer (some 5)) 0 0,
        .acquire .interface .asOptional (.object .interface 0) 1 0,
        .acquire .driverGuard .asOptional (.pointer (some 5)) 1 (-5), .moveAssign .interface 1 0 (-4),
        .destroy .interface 1 0, .destroy .interface 0 0] = some s ∧
      UndoneOnce .interface s ∧ AssignmentSafe .interface s := by
  refine Exists.imp (fun s run => ⟨run, claims_undone_once _ s run .interface⟩) (Option.isSome_iff_exists.mp ?_)
  rfl

end Guard

end CoUsb

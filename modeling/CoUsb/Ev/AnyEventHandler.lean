import CoUsb.Lib.Custody
import CoUsb.Lib.Machine
import Mathlib.Data.List.Basic
import Mathlib.Logic.Function.Basic

/-!
# `any_event_handler`

Any number of wrappers, and the storage they allocate, fill, call and give back. Blocks are numbered in the order they
are allocated in; the code compares storage with null only.
-/

namespace CoUsb.Ev

/-- `sizeof` and `alignof` of the handler types. -/
structure Layout (T : Type) where
  sizeof : T → Nat
  alignof : T → Nat

/-- A function is named by the type it casts the storage to. -/
structure Vtable (T : Type) where
  startFn : Option T := none
  refFn : Option T := none
  unrefFn : Option T := none
  stopFn : Option T := none
  dtorFn : Option T := none
  size : Nat
  align : Nat
  deriving DecidableEq, Repr

structure AnyEventHandler (T R : Type) where
  mVtable : Vtable T
  mMemres : R
  mStorage : Option Nat := none
  deriving DecidableEq, Repr

namespace AnyEventHandler

variable {T R ι : Type}

/-- A call of a memory resource, of a constructor that returned, or of a function of a vtable. -/
inductive Call (T R : Type) where
  | allocate (block : Nat) (memres : R) (size align : Nat)
  | construct (block : Nat) (type : T)
  | start (block : Nat) (fn : Option T)
  | ref (block : Nat) (fn : Option T)
  | unref (block : Nat) (fn : Option T)
  | stop (block : Nat) (fn : Option T)
  | destroy (block : Nat) (fn : Option T)
  | deallocate (block : Nat) (memres : R) (size align : Nat)
  deriving DecidableEq, Repr

/-! ### The operations -/

/-- Where a construction fails, if it does. -/
inductive Outcome where
  | allocationThrows
  | constructorThrows
  | constructed
  deriving DecidableEq, Repr

section

variable (L : Layout T)

def makeVtable (type : T) : Vtable T where
  startFn := some type
  refFn := some type
  unrefFn := some type
  stopFn := some type
  dtorFn := some type
  size := L.sizeof type
  align := L.alignof type

/-- The storage, or `none` when an exception leaves the function. -/
def constructStorage (memres : R) (type : T) (block : Nat) : Outcome → Option Nat × List (Call T R)
  | .allocationThrows => (none, [])
  | .constructorThrows =>
    (none, [.allocate block memres (L.sizeof type) (L.alignof type),
      .deallocate block memres (L.sizeof type) (L.alignof type)])
  | .constructed => (some block, [.allocate block memres (L.sizeof type) (L.alignof type), .construct block type])

def destroy (w : AnyEventHandler T R) : AnyEventHandler T R × List (Call T R) :=
  match w.mStorage with
  | none => (w, [])
  | some block =>
    ({ w with mStorage := none },
      [.destroy block w.mVtable.dtorFn, .deallocate block w.mMemres w.mVtable.size w.mVtable.align])

/-- An exception leaves the wrapper with the new resource, the old vtable and no storage. -/
def emplace (w : AnyEventHandler T R) (memres : R) (type : T) (block : Nat) (outcome : Outcome) :
    AnyEventHandler T R × List (Call T R) :=
  let (emptied, calls) := w.destroy
  let emptied := { emptied with mMemres := memres }
  match constructStorage L memres type block outcome with
  | (none, more) => (emptied, calls ++ more)
  | (some storage, more) => ({ emptied with mStorage := some storage, mVtable := makeVtable L type }, calls ++ more)

def movedFrom (other : AnyEventHandler T R) : AnyEventHandler T R := { other with mStorage := none }

def moveAssign (w other : AnyEventHandler T R) : AnyEventHandler T R × List (Call T R) :=
  let (emptied, calls) := w.destroy
  ({ emptied with mVtable := other.mVtable, mMemres := other.mMemres, mStorage := other.mStorage }, calls)

def valid (w : AnyEventHandler T R) : Bool := w.mStorage.isSome

/-- A function of the vtable is called on the storage, if there is any. -/
def invoke (w : AnyEventHandler T R) (call : Nat → Option T → Call T R) (fn : Vtable T → Option T) : List (Call T R) :=
  match w.mStorage with
  | none => []
  | some block => [call block (fn w.mVtable)]

/-- `answer` is what the handler's `start` returns. -/
def start (w : AnyEventHandler T R) (answer : Bool) : Bool × List (Call T R) :=
  (w.mStorage.isSome && answer, w.invoke .start Vtable.startFn)

def ref (w : AnyEventHandler T R) : List (Call T R) := w.invoke .ref Vtable.refFn

def unref (w : AnyEventHandler T R) : List (Call T R) := w.invoke .unref Vtable.unrefFn

def stop (w : AnyEventHandler T R) : List (Call T R) := w.invoke .stop Vtable.stopFn

end

/-! ### The machine -/

structure State (ι T R : Type) where
  wrappers : ι → Option (AnyEventHandler T R) := fun _ => none
  log : List (Call T R) := []

inductive Event (ι T R : Type) where
  /-- Default construction, with the default resource of the moment. -/
  | construct (a : ι) (memres : R) (size align : Nat)
  | constructFrom (a : ι) (memres : R) (type : T) (outcome : Outcome)
  /-- The overload without a resource passes the one of the wrapper. -/
  | emplace (a : ι) (memres : Option R) (type : T) (outcome : Outcome)
  | move (a other : ι)
  | moveAssign (a other : ι)
  | destroy (a : ι)
  | start (a : ι) (answer : Bool)
  | ref (a : ι)
  | unref (a : ι)
  | stop (a : ι)
  deriving DecidableEq, Repr

def Call.allocates : Call T R → Bool
  | .allocate .. => true
  | _ => false

namespace State

def blocks (s : State ι T R) : Nat := s.log.countP Call.allocates

def storageOf (s : State ι T R) (a : ι) : Option Nat := (s.wrappers a).bind mStorage

variable [DecidableEq ι]

def put (s : State ι T R) (a : ι) (w : Option (AnyEventHandler T R)) (calls : List (Call T R)) : State ι T R :=
  ⟨Function.update s.wrappers a w, s.log ++ calls⟩

def call (s : State ι T R) (calls : List (Call T R)) : State ι T R := { s with log := s.log ++ calls }

end State

section

variable [DecidableEq ι] (L : Layout T)

def step (s : State ι T R) : Event ι T R → Option (State ι T R)
  | .construct a memres size align =>
    if (s.wrappers a).isSome then none else some (s.put a (some { mVtable := { size, align }, mMemres := memres }) [])
  | .constructFrom a memres type outcome =>
    if (s.wrappers a).isSome then none
    else
      let (storage, calls) := constructStorage L memres type s.blocks outcome
      -- An exception leaves no object behind.
      some (s.put a (storage.map fun block => ⟨makeVtable L type, memres, some block⟩) calls)
  | .emplace a memres type outcome => do
    let w ← s.wrappers a
    let (filled, calls) := w.emplace L (memres.getD w.mMemres) type s.blocks outcome
    some (s.put a (some filled) calls)
  | .move a b => do
    let other ← s.wrappers b
    if (s.wrappers a).isSome then none else some ((s.put a (some other) []).put b (some other.movedFrom) [])
  | .moveAssign a b => do
    let w ← s.wrappers a
    let other ← s.wrappers b
    if a = b then some s
    else
      let (assigned, calls) := w.moveAssign other
      some ((s.put a (some assigned) calls).put b (some other.movedFrom) [])
  | .destroy a => do
    let w ← s.wrappers a
    some (s.put a none w.destroy.2)
  | .start a answer => do
    let w ← s.wrappers a
    some (s.call (w.start answer).2)
  | .ref a => do
    let w ← s.wrappers a
    some (s.call w.ref)
  | .unref a => do
    let w ← s.wrappers a
    some (s.call w.unref)
  | .stop a => do
    let w ← s.wrappers a
    some (s.call w.stop)

def machine : Machine (State ι T R) (Event ι T R) := ⟨step L⟩

end

/-! ### The law -/

namespace Call

def block : Call T R → Nat
  | .allocate block .. | .construct block _ | .start block _ | .ref block _ | .unref block _ | .stop block _
  | .destroy block _ | .deallocate block .. => block

/-- A call of a function of the handler that finds a handler of the type. -/
def Uses (type : T) : Call T R → Prop
  | .start _ fn | .ref _ fn | .unref _ fn | .stop _ fn => fn = some type
  | _ => False

def returns : Call T R → Option Nat
  | .deallocate block .. => some block
  | _ => none

end Call

def history (log : List (Call T R)) (block : Nat) : List (Call T R) := log.filter fun call => call.block = block

variable (L : Layout T)

/-- The block was allocated from the resource for a handler of the type, which was constructed in it and lives. -/
def Houses (memres : R) (type : T) (block : Nat) (calls : List (Call T R)) : Prop :=
  ∃ uses, calls = .allocate block memres (L.sizeof type) (L.alignof type) :: .construct block type :: uses ∧
    ∀ call ∈ uses, call.Uses type

/-- The whole life of a block that was given back. -/
inductive Returned (block : Nat) : List (Call T R) → Prop where
  | destroyed {memres type calls} (housed : Houses L memres type block calls) :
    Returned block (calls ++ [.destroy block (some type),
      .deallocate block memres (L.sizeof type) (L.alignof type)])
  | threw (memres type) :
    Returned block [.allocate block memres (L.sizeof type) (L.alignof type),
      .deallocate block memres (L.sizeof type) (L.alignof type)]

/-- The wrapper is valid when it has a live handler, and its functions reach the handler it has. -/
structure Serves (log : List (Call T R)) (w : AnyEventHandler T R) : Prop where
  valid : w.valid = true ↔
    ∃ block type, w.mStorage = some block ∧ Houses L w.mMemres type block (history log block)
  reaches : ∀ block type, w.mStorage = some block → Houses L w.mMemres type block (history log block) →
    (∀ answer, w.start answer = (answer, [.start block (some type)])) ∧ w.ref = [.ref block (some type)] ∧
    w.unref = [.unref block (some type)] ∧ w.stop = [.stop block (some type)]
  empty : w.mStorage = none → (∀ answer, w.start answer = (false, [])) ∧ w.ref = [] ∧ w.unref = [] ∧ w.stop = []

structure Exact (s : State ι T R) : Prop where
  exclusive : ∀ a b block, s.storageOf a = some block → s.storageOf b = some block → a = b
  /-- A block is with a wrapper, or it was given back. -/
  settled : ∀ block < s.blocks,
    (∃ a w type, s.wrappers a = some w ∧ w.mStorage = some block ∧
      Houses L w.mMemres type block (history s.log block)) ∨
    Returned L block (history s.log block)
  allocated : ∀ call ∈ s.log, call.block < s.blocks
  serves : ∀ a w, s.wrappers a = some w → Serves L s.log w

/-! ### Histories -/

variable {L} {s s' : State ι T R} {w other : AnyEventHandler T R} {a b : ι} {block n : Nat} {type : T} {memres : R}
  {log calls uses : List (Call T R)}

theorem history_append (log calls : List (Call T R)) (block : Nat) :
    history (log ++ calls) block = history log block ++ history calls block := List.filter_append ..

theorem history_of_all (all : ∀ call ∈ calls, call.block = block) : history calls block = calls :=
  List.filter_eq_self.mpr fun call member => decide_eq_true (all call member)

theorem history_of_ne (different : block ≠ n) (all : ∀ call ∈ calls, call.block = n) : history calls block = [] :=
  List.filter_eq_nil_iff.mpr fun call member same =>
    different ((of_decide_eq_true same).symm.trans (all call member))

theorem history_frame (different : block ≠ n) (all : ∀ call ∈ calls, call.block = n) :
    history (log ++ calls) block = history log block := by
  rw [history_append, history_of_ne different all, List.append_nil]

theorem Houses.used (housed : Houses L memres type block calls) (more : ∀ call ∈ uses, call.Uses type) :
    Houses L memres type block (calls ++ uses) := by
  obtain ⟨earlier, rfl, before⟩ := housed
  exact ⟨earlier ++ uses, rfl, fun call member => (List.mem_append.mp member).elim (before call) (more call)⟩

theorem Houses.type_eq {other : T} {memres' : R} (housed : Houses L memres type block calls)
    (again : Houses L memres' other block calls) : type = other := by
  obtain ⟨_, rfl, _⟩ := housed
  obtain ⟨_, same, _⟩ := again
  have constructed := (List.cons.inj (List.cons.inj same).2).1
  exact (Call.construct.inj constructed).2

/-! ### The invariant -/

/-- The blocks given back are the store, the wrappers the owners. -/
def custody (s : State ι T R) : Custody ι := ⟨s.blocks, s.log.filterMap Call.returns, s.storageOf⟩

/-- The vtable, the resource and the storage describe the same object. -/
structure Tracked (L : Layout T) (s : State ι T R) : Prop where
  custody : (custody s).Valid
  housed : ∀ a w block, s.wrappers a = some w → w.mStorage = some block →
    ∃ type, w.mVtable = makeVtable L type ∧ Houses L w.mMemres type block (history s.log block)
  returned : ∀ block ∈ s.log.filterMap Call.returns, Returned L block (history s.log block)
  fresh : ∀ block, s.blocks ≤ block → history s.log block = []

theorem tracked_empty : Tracked L ({} : State ι T R) :=
  ⟨Custody.empty_valid, fun _ _ _ none => absurd none (by simp), by simp, fun _ _ => rfl⟩

theorem storageOf_eq (live : s.wrappers a = some w) : s.storageOf a = w.mStorage := by
  rw [State.storageOf, live, Option.bind_some]

theorem Tracked.unborn (tracked : Tracked L s) :
    (∀ b, s.storageOf b ≠ some s.blocks) ∧ s.blocks ∉ s.log.filterMap Call.returns :=
  ⟨fun b theirs => (tracked.custody.owned_lt b _ theirs).1.false,
    fun member => (tracked.custody.stored_lt _ member).false⟩

theorem free_of_not_isSome (free : ¬ (s.wrappers a).isSome = true) : s.storageOf a = none := by
  rw [State.storageOf, Option.not_isSome_iff_eq_none.mp free, Option.bind_none]

section

variable [DecidableEq ι] {next : Option (AnyEventHandler T R)}

theorem storageOf_put (s : State ι T R) (a : ι) (next : Option (AnyEventHandler T R)) (calls : List (Call T R)) :
    (s.put a next calls).storageOf = Function.update s.storageOf a (next.bind mStorage) :=
  Function.comp_update (fun w : Option (AnyEventHandler T R) => w.bind mStorage) s.wrappers a next

theorem put_put (s : State ι T R) (a : ι) (first next : Option (AnyEventHandler T R)) (calls more : List (Call T R)) :
    (s.put a first calls).put a next more = s.put a next (calls ++ more) := by
  rw [State.put, State.put, State.put, Function.update_idem, List.append_assoc]

theorem blocks_append (s : State ι T R) (a : ι) (next : Option (AnyEventHandler T R)) (calls : List (Call T R)) :
    (s.put a next calls).blocks = s.blocks + calls.countP Call.allocates := List.countP_append ..

theorem put_wrappers (h : (s.put a next calls).wrappers b = some w) :
    b = a ∧ next = some w ∨ b ≠ a ∧ s.wrappers b = some w := by
  change Function.update s.wrappers a next b = some w at h
  by_cases same : b = a
  · rw [same, Function.update_self] at h
    exact .inl ⟨same, h⟩
  · rw [Function.update_of_ne same] at h
    exact .inr ⟨same, h⟩

theorem custody_put (s : State ι T R) (a : ι) (next : Option (AnyEventHandler T R)) (calls : List (Call T R)) :
    custody (s.put a next calls) = ⟨s.blocks + calls.countP Call.allocates,
      s.log.filterMap Call.returns ++ calls.filterMap Call.returns,
      Function.update s.storageOf a (next.bind mStorage)⟩ := by
  rw [custody, blocks_append, storageOf_put, State.put, List.filterMap_append]

theorem update_none (free : s.storageOf a = none) (empty : next.bind mStorage = none) :
    Function.update s.storageOf a (next.bind mStorage) = s.storageOf := by
  rw [empty, ← free, Function.update_eq_self]

/-! ### What the operations do -/

theorem Tracked.replace (tracked : Tracked L s) (free : s.storageOf a = none) (empty : next.bind mStorage = none) :
    Tracked L (s.put a next []) := by
  have log : (s.put a next []).log = s.log := List.append_nil _
  refine ⟨?_, fun b w block live storage => ?_, ?_, ?_⟩
  · rw [custody_put, update_none free empty, List.filterMap_nil, List.append_nil]
    exact tracked.custody
  · rcases put_wrappers live with ⟨_, rfl⟩ | ⟨_, old⟩
    · cases empty.symm.trans storage
    · rw [log]
      exact tracked.housed b w block old storage
  · rw [log]
    exact tracked.returned
  · rw [log, State.blocks, log]
    exact tracked.fresh

theorem returns_block {call : Call T R} (returns : call.returns = some block) : call.block = block := by
  cases call with
  | deallocate => exact Option.some.inj returns
  | _ => cases returns

/-- An operation that calls for block `n` only, which no other wrapper has. -/
theorem Tracked.at_block (tracked : Tracked L s) (all : ∀ call ∈ calls, call.block = n)
    (valid : (AnyEventHandler.custody (s.put a next calls)).Valid) (below : n < (s.put a next calls).blocks)
    (apart : ∀ b, b ≠ a → s.storageOf b ≠ some n) (outside : n ∉ s.log.filterMap Call.returns)
    (mine : ∀ w block, next = some w → w.mStorage = some block →
      ∃ type, w.mVtable = makeVtable L type ∧ Houses L w.mMemres type block (history (s.log ++ calls) block))
    (given : n ∈ calls.filterMap Call.returns → Returned L n (history (s.log ++ calls) n)) :
    Tracked L (s.put a next calls) := by
  have log : ∀ {block}, block ≠ n → history (s.put a next calls).log block = history s.log block :=
    fun different => history_frame different all
  refine ⟨valid, fun b w block live storage => ?_, fun block member => ?_, fun block above => ?_⟩
  · rcases put_wrappers live with ⟨_, new⟩ | ⟨other, old⟩
    · exact mine w block new storage
    · have different : block ≠ n := by
        rintro rfl
        exact apart b other ((storageOf_eq old).trans storage)
      rw [log different]
      exact tracked.housed b w block old storage
  · rw [State.put, List.filterMap_append, List.mem_append] at member
    by_cases same : block = n
    · subst same
      exact given (member.resolve_left outside)
    · rw [log same]
      refine tracked.returned block (member.resolve_right fun new => same ?_)
      obtain ⟨call, inside, returns⟩ := List.mem_filterMap.mp new
      exact (returns_block returns).symm.trans (all call inside)
  · have more : s.blocks ≤ (s.put a next calls).blocks := by
      rw [blocks_append]
      exact Nat.le_add_right ..
    rw [log (below.trans_le above).ne']
    exact tracked.fresh block (more.trans above)

theorem Tracked.discard (tracked : Tracked L s) (live : s.wrappers a = some w) (empty : next.bind mStorage = none) :
    Tracked L (s.put a next w.destroy.2) := by
  have mine := storageOf_eq live
  cases storage : w.mStorage with
  | none =>
    rw [storage] at mine
    have nothing : w.destroy.2 = [] := by rw [destroy, storage]
    exact nothing ▸ tracked.replace mine empty
  | some n =>
    rw [storage] at mine
    obtain ⟨type, vtable, housed⟩ := tracked.housed a w n live storage
    have calls : w.destroy.2 = [.destroy n (some type),
        .deallocate n w.mMemres (L.sizeof type) (L.alignof type)] := by
      rw [destroy, storage, vtable]
      rfl
    have all : ∀ call ∈ w.destroy.2, call.block = n := by simp [calls, Call.block]
    obtain ⟨below, outside⟩ := tracked.custody.owned_lt a n mine
    have blocks : (s.put a next w.destroy.2).blocks = s.blocks := by
      rw [blocks_append, calls]
      rfl
    apply tracked.at_block all _ (blocks ▸ below) _ outside
    · intro v block new storage'
      rw [new, Option.bind_some, storage'] at empty
      cases empty
    · intro _
      rw [history_append, history_of_all all, calls]
      exact .destroyed housed
    · have given := tracked.custody.giveBack mine
      rw [custody_put, empty, calls]
      exact given
    · intro b other theirs
      exact other (tracked.custody.exclusive _ _ _ theirs mine)

theorem Tracked.threw (tracked : Tracked L s) (free : s.storageOf a = none) (empty : next.bind mStorage = none)
    (memres : R) (type : T) :
    Tracked L (s.put a next (constructStorage L memres type s.blocks .constructorThrows).2) := by
  have all : ∀ call ∈ (constructStorage L memres type s.blocks .constructorThrows).2, call.block = s.blocks := by
    simp [constructStorage, Call.block]
  obtain ⟨apart, outside⟩ := tracked.unborn
  apply tracked.at_block all _ _ (fun b _ => apart b) outside
  · intro v block new storage
    rw [new, Option.bind_some, storage] at empty
    cases empty
  · intro _
    rw [history_append, tracked.fresh _ le_rfl, history_of_all all]
    exact .threw memres type
  · rw [custody_put, update_none free empty]
    exact tracked.custody.store
  · rw [blocks_append]
    exact Nat.lt_succ_self _

theorem Tracked.constructed (tracked : Tracked L s) (free : s.storageOf a = none) (memres : R) (type : T) :
    Tracked L (s.put a (some ⟨makeVtable L type, memres, some s.blocks⟩)
      (constructStorage L memres type s.blocks .constructed).2) := by
  have all : ∀ call ∈ (constructStorage L memres type s.blocks .constructed).2, call.block = s.blocks := by
    simp [constructStorage, Call.block]
  have kept : (constructStorage L memres type s.blocks .constructed).2.filterMap Call.returns = [] := rfl
  obtain ⟨apart, outside⟩ := tracked.unborn
  apply tracked.at_block all _ _ (fun b _ => apart b) outside
  · intro w block new storage
    obtain rfl := Option.some.inj new
    obtain rfl := Option.some.inj storage
    refine ⟨type, rfl, ?_⟩
    rw [history_append, tracked.fresh _ le_rfl, history_of_all all]
    exact ⟨[], rfl, by simp⟩
  · rw [kept]
    intro member
    cases member
  · rw [custody_put, kept, List.append_nil]
    exact tracked.custody.deliver free
  · rw [blocks_append]
    exact Nat.lt_succ_self _

theorem Tracked.handOver (tracked : Tracked L s) (free : s.storageOf a = none) (live : s.wrappers b = some other)
    (different : a ≠ b) : Tracked L ((s.put a (some other) []).put b (some other.movedFrom) []) := by
  have log : ((s.put a (some other) []).put b (some other.movedFrom) []).log = s.log := by simp [State.put]
  refine ⟨?_, fun c w block now storage => ?_, ?_, ?_⟩
  · have handed := tracked.custody.handOver free different
    have theirs : s.storageOf b = other.mStorage := storageOf_eq live
    change Custody.Valid ⟨_, _, Function.update (Function.update s.storageOf a (s.storageOf b)) b none⟩ at handed
    rw [theirs] at handed
    rw [AnyEventHandler.custody, storageOf_put, storageOf_put, State.blocks, log]
    exact handed
  · rw [log]
    rcases put_wrappers now with ⟨_, new⟩ | ⟨_, now⟩
    · obtain rfl := Option.some.inj new
      cases storage
    · rcases put_wrappers now with ⟨_, new⟩ | ⟨_, old⟩
      · obtain rfl := Option.some.inj new
        exact tracked.housed b other block live storage
      · exact tracked.housed c w block old storage
  · rw [log]
    exact tracked.returned
  · rw [log, State.blocks, log]
    exact tracked.fresh

end

theorem Tracked.use {call : Call T R} (tracked : Tracked L s) (live : s.wrappers a = some w)
    (storage : w.mStorage = some n)
    (mine : call.block = n) (reaches : ∀ type, w.mVtable = makeVtable L type → call.Uses type) :
    Tracked L (s.call [call]) := by
  have nothing : call.allocates = false ∧ call.returns = none := by
    obtain ⟨type, vtable, _⟩ := tracked.housed a w n live storage
    have uses := reaches type vtable
    cases call <;> first | exact ⟨rfl, rfl⟩ | cases uses
  have blocks : (s.call [call]).blocks = s.blocks := by
    simp [State.blocks, State.call, nothing.1]
  have returns : (s.call [call]).log.filterMap Call.returns = s.log.filterMap Call.returns := by
    simp [State.call, nothing.2]
  have log : ∀ {block}, block ≠ n → history (s.call [call]).log block = history s.log block := fun different =>
    history_frame different (by simpa using mine)
  have theirs := (storageOf_eq live).trans storage
  refine ⟨?_, fun b v block now storage' => ?_, fun block member => ?_, fun block above => ?_⟩
  · rw [AnyEventHandler.custody, blocks, returns]
    exact tracked.custody
  · obtain ⟨type, vtable, housed⟩ := tracked.housed b v block now storage'
    refine ⟨type, vtable, ?_⟩
    by_cases same : block = n
    · subst same
      have owner := tracked.custody.exclusive a b block theirs ((storageOf_eq now).trans storage')
      obtain rfl : w = v := Option.some.inj (live.symm.trans (owner ▸ now))
      show Houses L w.mMemres type block (history (s.log ++ [call]) block)
      have only : history [call] block = [call] := history_of_all (by simpa using mine)
      rw [history_append, only]
      exact housed.used fun _ member => List.mem_singleton.mp member ▸ reaches type vtable
    · rw [log same]
      exact housed
  · rw [returns] at member
    have different : block ≠ n := by
      rintro rfl
      exact (tracked.custody.owned_lt a block theirs).2 member
    rw [log different]
    exact tracked.returned block member
  · rw [blocks] at above
    rw [log ((tracked.custody.owned_lt a n theirs).1.trans_le above).ne']
    exact tracked.fresh block above

theorem Tracked.invoke (tracked : Tracked L s) (live : s.wrappers a = some w) {call : Nat → Option T → Call T R}
    {fn : Vtable T → Option T} (mine : ∀ n f, (call n f).block = n)
    (reaches : ∀ n type, (call n (fn (makeVtable L type))).Uses type) : Tracked L (s.call (w.invoke call fn)) := by
  unfold AnyEventHandler.invoke
  split
  case h_1 =>
    rw [State.call, List.append_nil]
    exact tracked
  case h_2 n storage => exact tracked.use live storage (mine n _) fun type vtable => vtable ▸ reaches n type

/-! ### Runs -/

section

variable [DecidableEq ι] {e : Event ι T R} {es : List (Event ι T R)}

theorem storageOf_put_self (s : State ι T R) (a : ι) (next : Option (AnyEventHandler T R)) (calls : List (Call T R)) :
    (s.put a next calls).storageOf a = next.bind mStorage := by
  rw [storageOf_put, Function.update_self]

theorem destroy_storage (w : AnyEventHandler T R) : w.destroy.1.mStorage = none := by
  unfold destroy
  split
  case h_1 none => exact none
  case h_2 => rfl

theorem countP_destroy (w : AnyEventHandler T R) : w.destroy.2.countP Call.allocates = 0 := by
  unfold destroy
  split <;> rfl

theorem Tracked.emplace (tracked : Tracked L s) (live : s.wrappers a = some w) (memres : R) (type : T)
    (outcome : Outcome) :
    Tracked L (s.put a (some (w.emplace L memres type s.blocks outcome).1)
      (w.emplace L memres type s.blocks outcome).2) := by
  have emptied : (some { w.destroy.1 with mMemres := memres }).bind mStorage = none := destroy_storage w
  have gone := tracked.discard live emptied
  have free := (storageOf_put_self s a (some { w.destroy.1 with mMemres := memres }) w.destroy.2).trans emptied
  have same : (s.put a (some { w.destroy.1 with mMemres := memres }) w.destroy.2).blocks = s.blocks := by
    rw [blocks_append, countP_destroy, Nat.add_zero]
  cases outcome with
  | allocationThrows =>
    have next := gone.replace free emptied
    rw [put_put] at next
    exact next
  | constructorThrows =>
    have next := gone.threw free emptied memres type
    rw [put_put, same] at next
    exact next
  | constructed =>
    have next := gone.constructed free memres type
    rw [put_put, same] at next
    exact next

theorem tracked_step (tracked : Tracked L s) (h : (machine L).step s e = some s') : Tracked L s' := by
  change step L s e = some s' at h
  cases e with
  | construct a memres size align =>
    simp only [step, Option.ite_none_left_eq_some] at h
    obtain ⟨free, h⟩ := h
    obtain rfl := Option.some.inj h
    exact tracked.replace (free_of_not_isSome free) rfl
  | constructFrom a memres type outcome =>
    simp only [step, Option.ite_none_left_eq_some] at h
    obtain ⟨free, h⟩ := h
    obtain rfl := Option.some.inj h
    have free := free_of_not_isSome free
    cases outcome with
    | allocationThrows => exact tracked.replace free rfl
    | constructorThrows => exact tracked.threw free rfl memres type
    | constructed => exact tracked.constructed free memres type
  | emplace a memres type outcome =>
    obtain ⟨w, live, h⟩ := Option.bind_eq_some_iff.mp h
    obtain rfl := Option.some.inj h
    exact tracked.emplace live _ type outcome
  | move a b =>
    obtain ⟨other, live, h⟩ := Option.bind_eq_some_iff.mp h
    simp only [Option.ite_none_left_eq_some] at h
    obtain ⟨free, h⟩ := h
    obtain rfl := Option.some.inj h
    have different : a ≠ b := by
      rintro rfl
      exact free (by rw [live, Option.isSome_some])
    exact tracked.handOver (free_of_not_isSome free) live different
  | moveAssign a b =>
    obtain ⟨w, live, h⟩ := Option.bind_eq_some_iff.mp h
    obtain ⟨other, live', h⟩ := Option.bind_eq_some_iff.mp h
    split at h
    case isTrue =>
      obtain rfl := Option.some.inj h
      exact tracked
    case isFalse different =>
      obtain rfl := Option.some.inj h
      have emptied : (some w.destroy.1).bind mStorage = none := destroy_storage w
      have gone := tracked.discard live emptied
      have free := (storageOf_put_self s a (some w.destroy.1) w.destroy.2).trans emptied
      have still : (s.put a (some w.destroy.1) w.destroy.2).wrappers b = some other :=
        (Function.update_of_ne (Ne.symm different) ..).trans live'
      have handed := gone.handOver free still different
      rw [put_put, List.append_nil] at handed
      exact handed
  | destroy a =>
    obtain ⟨w, live, h⟩ := Option.bind_eq_some_iff.mp h
    obtain rfl := Option.some.inj h
    exact tracked.discard live rfl
  | start a answer =>
    obtain ⟨w, live, h⟩ := Option.bind_eq_some_iff.mp h
    obtain rfl := Option.some.inj h
    exact tracked.invoke live (fun _ _ => rfl) fun _ _ => rfl
  | ref a =>
    obtain ⟨w, live, h⟩ := Option.bind_eq_some_iff.mp h
    obtain rfl := Option.some.inj h
    exact tracked.invoke live (fun _ _ => rfl) fun _ _ => rfl
  | unref a =>
    obtain ⟨w, live, h⟩ := Option.bind_eq_some_iff.mp h
    obtain rfl := Option.some.inj h
    exact tracked.invoke live (fun _ _ => rfl) fun _ _ => rfl
  | stop a =>
    obtain ⟨w, live, h⟩ := Option.bind_eq_some_iff.mp h
    obtain rfl := Option.some.inj h
    exact tracked.invoke live (fun _ _ => rfl) fun _ _ => rfl

end

/-! ### What the wrappers own -/

theorem Tracked.serves (tracked : Tracked L s) (live : s.wrappers a = some w) : Serves L s.log w where
  valid := by
    constructor
    · intro valid
      obtain ⟨block, storage⟩ := Option.isSome_iff_exists.mp valid
      obtain ⟨type, _, housed⟩ := tracked.housed a w block live storage
      exact ⟨block, type, storage, housed⟩
    · rintro ⟨block, type, storage, _⟩
      exact Option.isSome_iff_exists.mpr ⟨block, storage⟩
  reaches block type storage housed := by
    obtain ⟨other, vtable, housed'⟩ := tracked.housed a w block live storage
    obtain rfl := housed.type_eq housed'
    simp [start, ref, unref, stop, AnyEventHandler.invoke, storage, vtable, makeVtable]
  empty none := by simp [start, ref, unref, stop, AnyEventHandler.invoke, none]

theorem Tracked.allocated (tracked : Tracked L s) : ∀ call ∈ s.log, call.block < s.blocks := by
  intro call member
  by_contra above
  have mine : call ∈ history s.log call.block := List.mem_filter.mpr ⟨member, decide_eq_true rfl⟩
  rw [tracked.fresh _ (Nat.le_of_not_lt above)] at mine
  cases mine

theorem Tracked.exact (tracked : Tracked L s) : Exact L s where
  exclusive a b block := tracked.custody.exclusive a b block
  settled block below := by
    rcases tracked.custody.placed block below with given | ⟨a, owner⟩
    · exact .inr (tracked.returned block given)
    · obtain ⟨w, live, storage⟩ := Option.bind_eq_some_iff.mp owner
      obtain ⟨type, _, housed⟩ := tracked.housed a w block live storage
      exact .inl ⟨a, w, type, live, storage, housed⟩
  allocated := tracked.allocated
  serves _ _ live := tracked.serves live

section

variable [DecidableEq ι]

/-- After every sequence of operations, whatever they throw, the blocks are with one wrapper each or were given back
once, the way they were allocated and after the handler in them was destroyed once. -/
theorem storage_owned_exactly (L : Layout T) (es : List (Event ι T R)) (s : State ι T R)
    (h : (machine L).run {} es = some s) : Exact L s :=
  (Machine.run_invariant (I := Tracked L) tracked_step tracked_empty h).exact

end

/-- A constructor throws while a handler is replaced, and what is emplaced next is moved away and back. -/
theorem storage_owned_exactly_emplaced : ∃ s : State Nat Bool Nat,
    (machine ⟨fun type => if type then 16 else 8, fun _ => 8⟩).run {}
      [.construct 0 5 0 0, .emplace 0 none true .constructed, .emplace 0 (some 6) false .constructorThrows,
        .emplace 0 none false .constructed, .move 1 0, .moveAssign 0 1, .moveAssign 0 0, .ref 0, .stop 1,
        .destroy 1, .destroy 0] = some s ∧
    Exact ⟨fun type => if type then 16 else 8, fun _ => 8⟩ s := by
  refine Exists.imp (fun s run => ⟨run, storage_owned_exactly _ _ s run⟩) (Option.isSome_iff_exists.mp ?_)
  rfl

end AnyEventHandler

end CoUsb.Ev

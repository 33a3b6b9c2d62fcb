import CoUsb.Wrapper.Scope

/-!
# What becomes of handles and claims

Each handle that is opened and each interface or driver that is acquired belongs to one object, until it is closed or
undone, or its handle is given out.
-/

namespace CoUsb.Scope

inductive Resource where
  | handle (devh : Nat)
  | claim (k : Guard.Class) (duty : Guard.Duty)
  deriving DecidableEq, Repr

/-- The number of the call that acquired it. -/
def Resource.number : Resource → Nat
  | .handle devh => devh
  | .claim _ duty => duty.claim

def Object.owns : Object → Option Resource
  | .handle mStorage => mStorage.map .handle
  | .guard k _ this => this.duty.map (.claim k)

def Call.acquires : Call → Option Resource
  | .opens devh => some (.handle devh)
  | .close _ | .gives _ => none
  | .guard k call => (call.acquired k).map (.claim k)

def Call.releases : Call → Option Resource
  | .opens _ => none
  | .close devh | .gives devh => some (.handle devh)
  | .guard k call => (call.duty k.undoes).map (.claim k)

def account (s : State) : Account Resource :=
  ⟨s.log.filterMap Call.acquires, s.log.filterMap Call.releases, s.objects.filterMap Object.owns⟩

structure Kept (s : State) : Prop where
  balanced : (account s).Balanced
  numbered : ∀ (i : Nat) c x, s.log[i]? = some c → c.acquires = some x → x.number = i

variable {objects objects' : List Object} {calls : List Call} {op : Operation} {done : Done} {s s' : State}
  {e : Event} {es : List Event} {r : Int} {k : Guard.Class} {this : Guard} {x : Resource} {h i j : Nat}

/-! ### One step -/

/-- The calls and the objects after them account for what there was and what was acquired. -/
def Passes (objects : List Object) (calls : List Call) (objects' : List Object) : Prop :=
  (calls.filterMap Call.acquires ++ objects.filterMap Object.owns).Perm
    (calls.filterMap Call.releases ++ objects'.filterMap Object.owns)

theorem undoing_passes (k : Guard.Class) (wrapped : Bool) (this : Guard) (r : Int) :
    (undoing k this r).filterMap Call.acquires = [] ∧
      (undoing k this r).filterMap Call.releases = (Object.guard k wrapped this).owns.toList := by
  have different := Guard.acquires_ne_undoes k k
  unfold undoing
  cases held : this.mDevh <;>
    simp [held, Object.owns, Guard.duty, Call.acquires, Call.releases, Guard.Call.acquired, Guard.Call.duty,
      different.symm]

theorem closing_passes (mStorage : Option Nat) :
    (mStorage.toList.map Call.close).filterMap Call.acquires = [] ∧
      (mStorage.toList.map Call.close).filterMap Call.releases = (Object.handle mStorage).owns.toList := by
  cases mStorage <;> simp [Object.owns, Call.acquires, Call.releases]

theorem giving_passes (mStorage : Option Nat) :
    (mStorage.toList.map Call.gives).filterMap Call.acquires = [] ∧
      (mStorage.toList.map Call.gives).filterMap Call.releases = (Object.handle mStorage).owns.toList := by
  cases mStorage <;> simp [Object.owns, Call.acquires, Call.releases]

@[simp] theorem owns_emptied (k : Guard.Class) (wrapped : Bool) (this : Guard) :
    (Object.guard k wrapped (emptied this)).owns = none := rfl

@[simp] theorem owns_null : (Object.handle none).owns = none := rfl

/-- An object is emptied by the call that releases what it owns. -/
theorem passes_set {object object' : Object} (here : objects[i]? = some object)
    (releases : calls.filterMap Call.acquires = [] ∧ calls.filterMap Call.releases = object.owns.toList)
    (empty : object'.owns = none) : Passes objects calls (objects.set i object') := by
  have changed := Account.filterMap_set_perm (f := Object.owns) (y := object') here
  rw [empty, Option.toList_none, List.append_nil] at changed
  rw [Passes, releases.1, releases.2, List.nil_append]
  exact changed.symm.trans List.perm_append_comm

/-- What an object owns moves to a new one. -/
theorem passes_move {object object' moved : Object} (here : objects[i]? = some object)
    (taken : moved.owns = object.owns) (empty : object'.owns = none) :
    Passes objects [] (objects.set i object' ++ [moved]) := by
  have changed := Account.filterMap_set_perm (f := Object.owns) (y := object') here
  rw [empty, Option.toList_none, List.append_nil] at changed
  have last : [moved].filterMap Object.owns = object.owns.toList := by
    rw [Account.filterMap_cons_append, taken]
    exact List.append_nil _
  rw [Passes, List.filterMap_nil, List.filterMap_nil, List.nil_append, List.nil_append, List.filterMap_append, last]
  exact changed.symm

/-- What an object owns moves to another one, which releases what it had. -/
theorem passes_assign {a b : Nat} {target source moved object' : Object} (at_a : objects[a]? = some target)
    (at_b : objects[b]? = some source) (apart : a ≠ b)
    (releases : calls.filterMap Call.acquires = [] ∧ calls.filterMap Call.releases = target.owns.toList)
    (taken : moved.owns = source.owns) (empty : object'.owns = none) :
    Passes objects calls ((objects.set a moved).set b object') := by
  have exchanged := Account.filterMap_set_set_perm (f := Object.owns) (v := moved) (w := object') at_a at_b apart
  rw [taken, empty, Option.toList_none, List.append_nil, ← List.append_assoc] at exchanged
  rw [Passes, releases.1, releases.2, List.nil_append]
  exact ((List.perm_append_right_iff _).mp exchanged).symm.trans List.perm_append_comm

theorem effect_passes {next : Nat} (effect : Effect objects next op done) : Passes objects done.calls done.objects := by
  cases effect with
  | opens =>
    have none : [Call.opens next].filterMap Call.releases = [] := rfl
    rw [Passes, none, List.filterMap_append]
    exact (List.perm_append_singleton _ _).symm
  | openFails | assignSelf => exact .refl _
  | acquires source held =>
    have different := Guard.acquires_ne_undoes
    simpa [Passes, Call.acquires, Call.releases, Object.owns, Guard.duty, Guard.Call.acquired, Guard.Call.duty,
      different] using (List.perm_append_singleton _ _).symm
  | acquireFails source failed =>
    have different := Guard.acquires_ne_undoes
    simp [Passes, Call.acquires, Call.releases, Guard.Call.acquired, Guard.Call.duty, failed, different]
  | moveHandle here => exact passes_move here rfl rfl
  | moveGuard source => exact passes_move source rfl rfl
  | assignHandle target source apart => exact passes_assign target source apart (closing_passes _) rfl rfl
  | assignGuard target source apart => exact passes_assign target source apart (undoing_passes ..) rfl rfl
  | assignThrows target => exact passes_set target (undoing_passes ..) rfl
  | reset here => exact passes_set here (closing_passes _) rfl
  | release here => exact passes_set here (giving_passes _) rfl
  | giveUp here => exact passes_set here (undoing_passes ..) rfl

theorem undone_passes (object : Object) (r : Int) : (object.undone r).filterMap Call.acquires = [] ∧
    (object.undone r).filterMap Call.releases = object.owns.toList := by
  cases object with
  | handle mStorage => exact closing_passes mStorage
  | guard k wrapped this => exact undoing_passes k wrapped this r

/-- A call that acquires is numbered by its position. -/
theorem effect_numbered (effect : Effect objects s.log.length op done) {c : Call} (at_i : done.calls[i]? = some c)
    (made : c.acquires = some x) : x.number = s.log.length + i := by
  have silent : ∀ {calls : List Call}, calls.filterMap Call.acquires = [] → calls[i]? ≠ some c := by
    intro calls none found
    have member := List.mem_filterMap.mpr ⟨c, List.mem_of_getElem? found, made⟩
    rw [none] at member
    cases member
  cases effect with
  | opens =>
    rw [List.getElem?_singleton, Option.ite_none_right_eq_some] at at_i
    obtain ⟨rfl, rfl⟩ : i = 0 ∧ Call.opens s.log.length = c := at_i.imp_right Option.some.inj
    obtain rfl := Option.some.inj made
    rfl
  | acquires =>
    rw [List.getElem?_singleton, Option.ite_none_right_eq_some] at at_i
    obtain ⟨rfl, same⟩ := at_i
    obtain rfl := Option.some.inj same
    obtain ⟨d, acquired, rfl⟩ := Option.map_eq_some_iff.mp made
    exact (Guard.acquired_some acquired).2.symm
  | acquireFails source failed =>
    refine absurd at_i (silent ?_)
    simp [Call.acquires, Guard.Call.acquired, failed]
  | openFails | assignSelf | moveHandle | moveGuard => cases at_i
  | assignHandle | reset => exact absurd at_i (silent (closing_passes _).1)
  | assignGuard | assignThrows | giveUp => exact absurd at_i (silent (undoing_passes _ false _ _).1)
  | release => exact absurd at_i (silent (giving_passes _).1)

theorem Kept.pass {phase : Phase} (kept : Kept s) (passes : Passes s.objects calls objects)
    (numbered : ∀ (i : Nat) c x, calls[i]? = some c → c.acquires = some x → x.number = s.log.length + i) :
    Kept ⟨objects, phase, s.log ++ calls⟩ := by
  refine ⟨?_, fun i c x found made => ?_⟩
  · have moves : Account.Moves (account s) (account ⟨objects, phase, s.log ++ calls⟩) (calls.filterMap Call.acquires)
        (calls.filterMap Call.releases) (s.objects.filterMap Object.owns) (objects.filterMap Object.owns) :=
      ⟨List.filterMap_append, List.filterMap_append, List.perm_append_comm⟩
    exact ((moves.operates passes trivial).keeps fun x => (kept.balanced x).ge).2.mpr ⟨kept.balanced, trivial⟩
  · by_cases before : i < s.log.length
    · exact kept.numbered i c x ((List.getElem?_append_left before).symm.trans found) made
    · have behind := not_lt.mp before
      have number := numbered _ c x ((List.getElem?_append_right behind).symm.trans found) made
      rwa [Nat.add_sub_of_le behind] at number

theorem kept_step (kept : Kept s) (step : Step s e s') : Kept s' := by
  cases step with
  | operation _ effect => exact kept.pass (effect_passes effect) fun i c x => effect_numbered effect
  | leave | proceed => exact ⟨kept.balanced, kept.numbered⟩
  | @destroy r _ _ _ rest object _ last =>
    obtain ⟨silent, releases⟩ := undone_passes object r
    refine kept.pass ?_ fun i c x found made => ?_
    · rw [Passes, silent, releases, last, List.filterMap_append, List.nil_append]
      have one : [object].filterMap Object.owns = object.owns.toList := by
        rw [Account.filterMap_cons_append]
        exact List.append_nil _
      rw [one]
      exact List.perm_append_comm
    · have member := List.mem_filterMap.mpr ⟨c, List.mem_of_getElem? found, made⟩
      rw [silent] at member
      cases member

theorem kept_initial : Kept {} := ⟨fun _ => rfl, fun i c x found => by cases found⟩

theorem kept_run (run : machine.run {} es = some s) : Kept s :=
  Machine.run_invariant (fun kept step => kept_step kept (step_cases step)) kept_initial run

/-! ### Each once -/

theorem Kept.acquired_once (kept : Kept s) (x : Resource) : (account s).acquired.count x ≤ 1 :=
  List.nodup_iff_count_le_one.mp (Log.nodup_of_numbered kept.numbered) x

/-- What was acquired was released by one call or is owned by one object, and nothing else was. -/
structure Settled (s : State) : Prop where
  once : ∀ x ∈ (account s).acquired, (account s).released.count x + (account s).designated.count x = 1
  nothingElse : ∀ x ∈ (account s).released ++ (account s).designated, x ∈ (account s).acquired

theorem Kept.settled (kept : Kept s) : Settled s := by
  refine ⟨fun x member => ?_, fun x member => ?_⟩
  · have one := List.count_eq_one_of_mem (Log.nodup_of_numbered kept.numbered) member
    exact (kept.balanced x).symm.trans one
  · have some' := List.count_pos_iff.mpr member
    rw [List.count_append, ← kept.balanced x] at some'
    exact List.count_pos_iff.mp some'

/-! ### Exceptions of destructors -/

/-- What is thrown when the objects are destroyed and the calls of their destructors return as given. -/
def failures (destroyed : List (Object × Int)) : List ErrorCode := destroyed.filterMap fun d => d.1.throws d.2

/-- The destructor of a wrapped object throws. -/
def Escapes (destroyed : List (Object × Int)) : Prop := ∃ d ∈ destroyed, d.1.wrapped = true ∧ d.1.throws d.2 ≠ none

/-- Where it leads to destroy the objects with `exn` on its way. -/
def Phase.Results (exn : Option ErrorCode) (destroyed : List (Object × Int)) : Phase → Prop
  | .running => False
  | .leaving exn' _ => exn'.toList = exn.toList ++ failures destroyed ∧ ¬ Escapes destroyed
  | .terminated => 1 < exn.toList.length + (failures destroyed).length ∨ Escapes destroyed

def Event.ofReply (d : Int × Nat) : Event := .destroy d.1 d.2

/-- The end of a run from `s` in which calls of destructors return as `ds` says. -/
structure Destroys (exn : Option ErrorCode) (ds : List (Int × Nat)) (s t : State) (destroyed : List (Object × Int)) :
    Prop where
  replies : destroyed.map Prod.snd = ds.map Prod.fst
  objects : s.objects = t.objects ++ (destroyed.map Prod.fst).reverse
  log : t.log = s.log ++ destroyed.flatMap fun d => d.1.undone d.2
  phase : t.phase.Results exn destroyed

theorem failures_concat (destroyed : List (Object × Int)) (object : Object) (r : Int) :
    failures (destroyed ++ [(object, r)]) = failures destroyed ++ (object.throws r).toList := by
  rw [failures, List.filterMap_append, failures, Account.filterMap_cons_append]
  simp

theorem escapes_concat {destroyed : List (Object × Int)} {object : Object} :
    Escapes (destroyed ++ [(object, r)]) ↔ Escapes destroyed ∨ object.wrapped = true ∧ object.throws r ≠ none := by
  simp [Escapes, or_and_right, exists_or]

theorem after_results {exn pending : Option ErrorCode} {destroyed : List (Object × Int)} {mark mark' handler : Nat}
    {object : Object} (before : (Phase.leaving pending mark').Results exn destroyed) :
    (Phase.after pending mark handler object.wrapped (object.throws r)).Results exn (destroyed ++ [(object, r)]) := by
  obtain ⟨before, held⟩ := before
  have after := failures_concat destroyed object r
  cases thrown : object.throws r with
  | none =>
    rw [thrown, Option.toList_none, List.append_nil] at after
    refine ⟨after ▸ before, fun escapes => ?_⟩
    exact (escapes_concat.mp escapes).elim held fun throws => throws.2 thrown
  | some ec =>
    rw [thrown, Option.toList_some] at after
    cases kept : object.wrapped with
    | true => exact .inr (escapes_concat.mpr (.inr ⟨kept, by simp [thrown]⟩))
    | false =>
      cases pending with
      | none =>
        obtain ⟨none, nothing⟩ := List.append_eq_nil_iff.mp before.symm
        refine ⟨by rw [none, after, nothing]; rfl, fun escapes => ?_⟩
        exact (escapes_concat.mp escapes).elim held fun throws => by simp [kept] at throws
      | some first =>
        have one := congrArg List.length before
        simp only [Option.toList_some, List.length_singleton, List.length_append] at one
        refine .inl ?_
        rw [after, List.length_append, List.length_singleton]
        omega

theorem destroys_run {exn : Option ErrorCode} {mark : Nat} {ds : List (Int × Nat)} {t : State}
    (leaving : s.phase = .leaving exn mark) (run : machine.run s (ds.map Event.ofReply) = some t) :
    ∃ destroyed, Destroys exn ds s t destroyed := by
  induction ds using List.reverseRecOn generalizing t with
  | nil =>
    obtain rfl := Option.some.inj run
    refine ⟨[], rfl, (List.append_nil _).symm, (List.append_nil _).symm, ?_⟩
    rw [leaving]
    exact ⟨(List.append_nil _).symm, by simp [Escapes]⟩
  | append_singleton ds d ih =>
    rw [List.map_append, List.map_singleton] at run
    obtain ⟨u, before, last⟩ := Machine.run_concat.mp run
    obtain ⟨destroyed, replies, objects, log, results⟩ := ih before
    cases step_cases last with
    | @destroy _ pending _ _ rest object at_phase top =>
      rw [at_phase] at results
      refine ⟨destroyed ++ [(object, d.1)], ?_, ?_, ?_, after_results results⟩
      · rw [List.map_append, List.map_append, replies]
        rfl
      · rw [objects, top]
        simp
      · dsimp only
        rw [log, List.flatMap_append, List.append_assoc]
        simp

/-- Whatever a thread does with handles, interfaces and driver guards in its blocks: each resource it acquired is
released by one call or belongs to one object. When objects are destroyed, the last one goes first, an exception leaves
when one destructor throws that of an object not wrapped, and the program is terminated exactly when a destructor throws
with an exception on its way, or that of a wrapped object does. -/
theorem blocks_settle (run : machine.run {} es = some s) :
    Settled s ∧ ∀ exn mark ds t, s.phase = .leaving exn mark → machine.run s (ds.map Event.ofReply) = some t →
      ∃ destroyed, Destroys exn ds s t destroyed :=
  ⟨(kept_run run).settled, fun _ _ _ _ leaving => destroys_run leaving⟩

/-- A handle is opened and an interface claimed, then their block ends. -/
def claimed (errp : ErrorProtocol) : List Event :=
  [.operation (.openDevice .asException 0) 0, .operation (.acquire .interface errp 0 1 0) 0, .leave 0]

/-- The interface cannot be released. The exception destroys the handle and leaves the block, but it does not leave an
optional. -/
theorem blocks_settle_failing :
    (∃ s t destroyed, machine.run {} (claimed .asException) = some s ∧ Settled s ∧
      Destroys none [(-4, 0), (0, 0)] s t destroyed ∧ t.phase = .leaving (some (makeUsbErrorCode (-4))) 0) ∧
    ∃ s t destroyed, machine.run {} (claimed .asOptional) = some s ∧ Settled s ∧
      Destroys none [(-4, 0)] s t destroyed ∧ t.phase = .terminated := by
  have run : ∀ errp, ∃ s, machine.run {} (claimed errp) = some s := by
    intro errp
    cases errp <;> exact ⟨_, rfl⟩
  constructor
  · obtain ⟨s, run⟩ := run .asException
    obtain rfl := Option.some.inj run
    obtain ⟨settled, destroyed⟩ := blocks_settle run
    obtain ⟨destroyed, destroys⟩ := destroyed none 0 [(-4, 0), (0, 0)] _ rfl rfl
    exact ⟨_, _, destroyed, run, settled, destroys, rfl⟩
  · obtain ⟨s, run⟩ := run .asOptional
    obtain rfl := Option.some.inj run
    obtain ⟨settled, destroyed⟩ := blocks_settle run
    obtain ⟨destroyed, destroys⟩ := destroyed none 0 [(-4, 0)] _ rfl rfl
    exact ⟨_, _, destroyed, run, settled, destroys, rfl⟩

end CoUsb.Scope

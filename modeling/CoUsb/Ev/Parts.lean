import CoUsb.Ev.AnyEventHandler
import CoUsb.Ev.EventHandlerRef
import CoUsb.Ev.References
import CoUsb.Lib.Slots

/-!
# The service and its parts

`handler_service` calls the `any_event_handler` it stores and hands out `event_handler_ref`s to it, whose `ref` and
`unref` go through it to the handler. The service's model has both built in; here each of its runs is followed by the
models of the two parts.
-/

namespace CoUsb.Ev.Parts

variable {R : Type}

structure State (R : Type) where
  wrapper : AnyEventHandler.State Unit HandlerType R
  refs : EventHandlerRef.State Unit Unit := {}

inductive Event (R : Type) where
  | handler (e : AnyEventHandler.Event Unit HandlerType R)
  | refs (e : EventHandlerRef.Event Unit)

/-- The references are to the wrapper, which gets their calls. -/
def through : EventHandlerRef.Call Unit Unit → AnyEventHandler.Event Unit HandlerType R
  | .ref _ _ => .ref ()
  | .unref _ _ => .unref ()

def references : Machine (EventHandlerRef.State Unit Unit) (EventHandlerRef.Event Unit) :=
  EventHandlerRef.machine fun _ => ()

section

variable (L : Layout HandlerType)

def step (p : State R) : Event R → Option (State R)
  | .handler e => ((AnyEventHandler.machine L).step p.wrapper e).map fun wrapper => { p with wrapper }
  | .refs e => do
    let refs ← references.step p.refs e
    let wrapper ← (AnyEventHandler.machine L).run p.wrapper ((refs.log.drop p.refs.log.length).map through)
    some ⟨wrapper, refs⟩

def machine : Machine (State R) (Event R) := ⟨step L⟩

end

/-! ### What the service does with its parts -/

/-- The memory resource of `emplace_handler`, and whether its allocation succeeds when the handler is not built. -/
structure Construction (R : Type) where
  memres : R
  allocated : Bool

def Construction.outcome (c : Construction R) (built : Bool) : AnyEventHandler.Outcome :=
  if built then .constructed else if c.allocated then .constructorThrows else .allocationThrows

section

variable (s : Ev.State) (c : Construction R) (type : HandlerType) (built : Bool) (launch : Launch)

def emplaces : List (Event R) :=
  (if s.mHandler.isSome then [.handler (.stop ())] else []) ++
    [.handler (.emplace () (some c.memres) type (c.outcome built))]

def starts : List (Event R) := if s.mStarted then [] else [.handler (.start () (launch == .yes))]

def emplacesAndStarts : List (Event R) :=
  emplaces s c type built ++
    if built then [.refs (.fromHandler ()), .refs (.destroy s.nextRef)] ++ starts s launch else []

def performs (c : Construction R) : Operation → List (Event R)
  | .initContext _ | .requestStop => []
  | .emplaceHandler type built => emplaces s c type built ++ if built then [.refs (.fromHandler ())] else []
  | .start launch => starts s launch
  | .shutdown => [.handler (.stop ())]
  | .destruct => [.handler (.stop ()), .handler (.destroy ())]
  | .makeContext r type built launch => if r ≠ 0 then [] else emplacesAndStarts s c type built launch
  | .getHandlerService r built launch =>
    if s.mStarted || r ≠ 0 then [] else emplacesAndStarts s c .refcounted built launch
  | .handler => [.refs (.fromHandler ())]
  | .copy r => [.refs (.copy r)]
  | .move r => [.refs (.move r)]
  | .copyAssign a b => [.refs (.copyAssign a b)]
  | .moveAssign a b => [.refs (.moveAssign a b)]
  | .drop r => [.refs (.destroy r)]

end

/-! ### The coupling -/

/-- A call that the service and the wrapper both log, whatever they know of the handler. -/
inductive HandlerCall where
  | construct | destroy | stop | unref
  deriving DecidableEq, Repr

def HandlerCall.ofAction : Action → Option HandlerCall
  | .construct _ => some .construct
  | .destroy _ => some .destroy
  | .stop _ => some .stop
  | .unref _ _ => some .unref
  | .init _ | .exit _ | .interrupt _ | .start _ _ _ _ => none

def HandlerCall.ofCall : AnyEventHandler.Call HandlerType R → Option HandlerCall
  | .construct _ _ => some .construct
  | .destroy _ _ => some .destroy
  | .stop _ _ => some .stop
  | .unref _ _ => some .unref
  | .allocate .. | .deallocate .. | .start _ _ | .ref _ _ => none

/-- `m_counter` after a call. -/
def count (n : Nat) : AnyEventHandler.Call HandlerType R → Nat
  | .ref _ _ => sizeT (n + 1)
  | .unref _ _ => Word.sub 64 n 1
  | _ => n

/-- The wrapper has a handler of this type, with the counter its calls make. -/
structure Houses (L : Layout HandlerType) (x : AnyEventHandler.State Unit HandlerType R)
    (w : AnyEventHandler HandlerType R) (block : Nat) (h : Handler) : Prop where
  live : x.wrappers () = some w
  storage : w.mStorage = some block
  vtable : w.mVtable = AnyEventHandler.makeVtable L h.type
  counter : h.type = .refcounted → h.counter = (AnyEventHandler.history x.log block).foldl count 0

structure Wraps (L : Layout HandlerType) (s : Ev.State) (x : AnyEventHandler.State Unit HandlerType R) : Prop where
  tracked : AnyEventHandler.Tracked L x
  alive : (x.wrappers ()).isSome = s.alive
  empty : s.mHandler = none → x.storageOf () = none
  stored : ∀ h, s.mHandler = some h → ∃ w block, Houses L x w block h
  log : s.log.filterMap HandlerCall.ofAction = x.log.filterMap HandlerCall.ofCall

/-- What the reference `r` designates, if it is there. -/
def original (refs : EventHandlerRef.State Unit Unit) (r : Nat) : Option (Option Unit) :=
  (refs.live r).map EventHandlerRef.mOriginal

structure Refers (s : Ev.State) (refs : EventHandlerRef.State Unit Unit) : Prop where
  length : refs.refs.length = s.nextRef
  valid : ∀ r, r ∈ s.valid ↔ original refs r = some (some ())
  null : ∀ r, r ∈ s.null ↔ original refs r = some none

structure Follows (L : Layout HandlerType) (s : Ev.State) (p : State R) : Prop where
  wraps : Wraps L s p.wrapper
  refers : Refers s p.refs

variable {L : Layout HandlerType} {s s' t : Ev.State} {x : AnyEventHandler.State Unit HandlerType R}
  {refs : EventHandlerRef.State Unit Unit} {p q : State R} {v u : EventHandlerRef Unit Unit} {h : Handler}
  {w : AnyEventHandler HandlerType R} {block r a b : Nat} {type : HandlerType} {built : Bool} {launch : Launch}
  {c : Construction R}

/-! ### The wrapper -/

open AnyEventHandler (tracked_step history history_append)

theorem Wraps.same (wraps : Wraps L s x) (alive : s'.alive = s.alive) (handler : s'.mHandler = s.mHandler)
    (log : s'.log.filterMap HandlerCall.ofAction = s.log.filterMap HandlerCall.ofAction) : Wraps L s' x :=
  ⟨wraps.tracked, wraps.alive.trans alive.symm, handler ▸ wraps.empty, handler ▸ wraps.stored, log.trans wraps.log⟩

theorem Wraps.wrapper (wraps : Wraps L s x) (alive : s.alive = true) : ∃ w, x.wrappers () = some w :=
  Option.isSome_iff_exists.mp (wraps.alive.trans alive)

/-- What the service does where a function of the handler it stores is called. -/
structure Uses (call : Nat → Option HandlerType → AnyEventHandler.Call HandlerType R) (s s' : Ev.State) : Prop where
  alive : s'.alive = s.alive
  empty : s.mHandler = none → s'.mHandler = none ∧
    s'.log.filterMap HandlerCall.ofAction = s.log.filterMap HandlerCall.ofAction
  stored : ∀ h, s.mHandler = some h → ∃ h', s'.mHandler = some h' ∧ h'.type = h.type ∧
    (h.type = .refcounted → ∀ n fn, h'.counter = count h.counter (call n fn)) ∧
    ∀ n fn, s'.log.filterMap HandlerCall.ofAction =
      s.log.filterMap HandlerCall.ofAction ++ (HandlerCall.ofCall (call n fn)).toList

/-- The wrapper calls the function on its storage, and wraps what the service then stores. -/
theorem Wraps.uses {call : Nat → Option HandlerType → AnyEventHandler.Call HandlerType R}
    {fn : Vtable HandlerType → Option HandlerType} (wraps : Wraps L s x) (live : x.wrappers () = some w)
    (uses : Uses call s s') (at_block : ∀ n f, (call n f).block = n)
    (reaches : ∀ type, fn (AnyEventHandler.makeVtable L type) = some type)
    (own : ∀ n type, (call n (some type)).Uses type) : Wraps L s' (x.call (w.invoke call fn)) := by
  have tracked : AnyEventHandler.Tracked L (x.call (w.invoke call fn)) :=
    wraps.tracked.invoke live at_block fun n type => reaches type ▸ own n type
  cases handler : s.mHandler with
  | none =>
    obtain ⟨gone, log⟩ := uses.empty handler
    have empty : w.mStorage = none := (AnyEventHandler.storageOf_eq live).symm.trans (wraps.empty handler)
    have nothing : w.invoke call fn = [] := by rw [AnyEventHandler.invoke, empty]
    refine ⟨tracked, wraps.alive.trans uses.alive.symm, fun _ => wraps.empty handler, fun h stored => ?_, ?_⟩
    · cases gone.symm.trans stored
    · rw [nothing, AnyEventHandler.State.call, List.append_nil, log, wraps.log]
  | some h =>
    obtain ⟨h', next, type, counter, log⟩ := uses.stored h handler
    obtain ⟨w', block, live', storage, vtable, counted⟩ := wraps.stored h handler
    obtain rfl := Option.some.inj (live.symm.trans live')
    have calls : w.invoke call fn = [call block (some h.type)] := by
      rw [AnyEventHandler.invoke, storage, vtable, reaches]
    refine ⟨tracked, wraps.alive.trans uses.alive.symm, fun none => ?_, fun g stored => ?_, ?_⟩
    · cases next.symm.trans none
    · obtain rfl := Option.some.inj (next.symm.trans stored)
      refine ⟨w, block, live, storage, type ▸ vtable, fun refcounted => ?_⟩
      have refcounted : h.type = .refcounted := type.symm.trans refcounted
      have only : history [call block (some h.type)] block = [call block (some h.type)] :=
        AnyEventHandler.history_of_all fun c member => List.mem_singleton.mp member ▸ at_block ..
      rw [counter refcounted block (some h.type), counted refcounted, calls, AnyEventHandler.State.call,
        history_append, only, List.foldl_append, List.foldl_cons, List.foldl_nil]
    · rw [log block (some h.type), wraps.log, calls, AnyEventHandler.State.call, List.filterMap_append]
      rfl

theorem Uses.of_empty {call : Nat → Option HandlerType → AnyEventHandler.Call HandlerType R}
    (empty : s.mHandler = none) : Uses call s s :=
  ⟨rfl, fun _ => ⟨empty, rfl⟩, fun _ stored => by cases empty.symm.trans stored⟩

theorem Uses.of_stored {call : Nat → Option HandlerType → AnyEventHandler.Call HandlerType R} {h' : Handler}
    (stored : s.mHandler = some h) (alive : s'.alive = s.alive) (next : s'.mHandler = some h')
    (type : h'.type = h.type) (counter : h.type = .refcounted → ∀ n fn, h'.counter = count h.counter (call n fn))
    (log : ∀ n fn, s'.log.filterMap HandlerCall.ofAction =
      s.log.filterMap HandlerCall.ofAction ++ (HandlerCall.ofCall (call n fn)).toList) : Uses call s s' := by
  refine ⟨alive, fun empty => ?_, fun g found => ?_⟩
  · cases stored.symm.trans empty
  · obtain rfl := Option.some.inj (stored.symm.trans found)
    exact ⟨h', next, type, counter, log⟩

theorem uses_stop (stopped : stopHandler s = some s') : Uses (R := R) .stop s s' := by
  obtain ⟨empty, rfl⟩ | ⟨h, stored, _, rfl⟩ := stopHandler_cases stopped
  · exact .of_empty empty
  · exact .of_stored stored rfl rfl rfl (fun _ _ _ => rfl) fun _ _ => List.filterMap_append ..

theorem uses_ref (s : Ev.State) : Uses (R := R) .ref s (refHandler s) := by
  unfold refHandler
  cases stored : s.mHandler with
  | none => exact ⟨rfl, fun _ => ⟨rfl, rfl⟩, fun _ found => by cases stored.symm.trans found⟩
  | some h =>
    refine .of_stored stored rfl rfl (Handler.ref_type h) (fun refcounted _ _ => ?_) fun _ _ => ?_
    · rw [Handler.ref, refcounted]
      rfl
    · exact (List.append_nil _).symm

theorem uses_unref (s : Ev.State) : Uses (R := R) .unref s (unrefHandler s) := by
  unfold unrefHandler
  split
  case h_1 h stored =>
    refine .of_stored stored rfl rfl (Handler.unref_type h) (fun refcounted _ _ => ?_) fun _ _ => ?_
    · rw [Handler.unref, refcounted]
      rfl
    · exact List.filterMap_append ..
  case h_2 empty => exact .of_empty empty

theorem uses_startHandler (s : Ev.State) (launch : Launch) : Uses (R := R) .start s (startHandler s launch).1 := by
  unfold startHandler
  split
  case h_1 empty => exact .of_empty empty
  case h_2 h stored =>
    cases launch with
    | throws => exact .of_stored stored rfl stored rfl (fun _ _ _ => rfl) fun _ _ => (List.append_nil _).symm
    | yes => exact .of_stored stored rfl rfl rfl (fun _ _ _ => rfl) fun _ _ => List.filterMap_append ..
    | no => exact .of_stored stored rfl stored rfl (fun _ _ _ => rfl) fun _ _ => List.filterMap_append ..

/-! ### Another handler -/

theorem Wraps.destroys (wraps : Wraps L s x) (live : x.wrappers () = some w) :
    (destroyHandler s).log.filterMap HandlerCall.ofAction = (x.log ++ w.destroy.2).filterMap HandlerCall.ofCall := by
  rw [List.filterMap_append, ← wraps.log]
  unfold destroyHandler AnyEventHandler.destroy
  cases handler : s.mHandler with
  | none =>
    have empty : w.mStorage = none := (AnyEventHandler.storageOf_eq live).symm.trans (wraps.empty handler)
    rw [empty]
    exact (List.append_nil _).symm
  | some h =>
    obtain ⟨w', block, live', storage, _, _⟩ := wraps.stored h handler
    obtain rfl := Option.some.inj (live.symm.trans live')
    rw [storage]
    exact List.filterMap_append ..

theorem destroyHandler_handler (s : Ev.State) : (destroyHandler s).mHandler = none := by
  unfold destroyHandler
  split
  case h_1 empty => exact empty
  case h_2 => rfl

theorem Wraps.destroy (wraps : Wraps L s x) (live : x.wrappers () = some w) (gone : s'.alive = false)
    (handler : s'.mHandler = none)
    (log : s'.log.filterMap HandlerCall.ofAction = (destroyHandler s).log.filterMap HandlerCall.ofAction) :
    Wraps L s' (x.put () none w.destroy.2) := by
  refine ⟨wraps.tracked.discard live rfl, gone.symm, fun _ => ?_, fun h stored => ?_, ?_⟩
  · exact AnyEventHandler.storageOf_put_self x () none _
  · cases handler.symm.trans stored
  · rw [log, wraps.destroys live]
    rfl

theorem emplace_failed (w : AnyEventHandler HandlerType R) (type : HandlerType) (block : Nat) (c : Construction R) :
    (w.emplace L c.memres type block (c.outcome false)).1.mStorage = none ∧
      (w.emplace L c.memres type block (c.outcome false)).2.filterMap HandlerCall.ofCall =
        w.destroy.2.filterMap HandlerCall.ofCall := by
  unfold Construction.outcome
  cases c.allocated
  · exact ⟨AnyEventHandler.destroy_storage w, congrArg _ (List.append_nil _)⟩
  · exact ⟨AnyEventHandler.destroy_storage w, (List.filterMap_append ..).trans (List.append_nil _)⟩

/-- The calls for the new block start with its construction. -/
theorem history_emplaced (wraps : Wraps L s x) (live : x.wrappers () = some w) (more : List _) :
    history (x.log ++ (w.destroy.2 ++ more)) x.blocks = history more x.blocks := by
  have emptied : (some w.destroy.1).bind AnyEventHandler.mStorage = none := AnyEventHandler.destroy_storage w
  have gone := wraps.tracked.discard live emptied
  have same : (x.put () (some w.destroy.1) w.destroy.2).blocks = x.blocks := by
    rw [AnyEventHandler.blocks_append, AnyEventHandler.countP_destroy, Nat.add_zero]
  have fresh : history (x.log ++ w.destroy.2) x.blocks = [] := gone.fresh x.blocks same.le
  rw [← List.append_assoc, history_append, fresh, List.nil_append]

theorem Wraps.emplace (wraps : Wraps L s x) (live : x.wrappers () = some w) (type : HandlerType) (built : Bool)
    (c : Construction R) :
    Wraps L (Ev.emplace s type built)
      (x.put () (some (w.emplace L c.memres type x.blocks (c.outcome built)).1)
        (w.emplace L c.memres type x.blocks (c.outcome built)).2) := by
  have alive : true = s.alive := by rw [← wraps.alive, live, Option.isSome_some]
  have now : ∀ next calls, (x.put () (some next) calls).wrappers () = some next :=
    by simp [AnyEventHandler.State.put]
  refine ⟨wraps.tracked.emplace live c.memres type (c.outcome built), ?_, fun none => ?_, fun h stored => ?_, ?_⟩
  · rw [now, Ev.emplace_alive, ← alive, Option.isSome_some]
  · cases built with
    | true => cases none
    | false =>
      rw [AnyEventHandler.storageOf_put_self]
      exact (emplace_failed w type x.blocks c).1
  · cases built with
    | true =>
      obtain rfl := Option.some.inj stored
      refine ⟨_, x.blocks, now _ _, rfl, rfl, fun _ => ?_⟩
      show 0 = (history (x.log ++ (w.destroy.2 ++ _)) x.blocks).foldl count 0
      rw [history_emplaced wraps live, AnyEventHandler.history_of_all (by simp [AnyEventHandler.Call.block])]
      rfl
    | false => cases (destroyHandler_handler s).symm.trans stored
  · show _ = (x.log ++ _).filterMap HandlerCall.ofCall
    cases built with
    | true =>
      show ((destroyHandler s).log ++ _).filterMap HandlerCall.ofAction =
        (x.log ++ (w.destroy.2 ++ _)).filterMap HandlerCall.ofCall
      rw [← List.append_assoc, List.filterMap_append, wraps.destroys live, List.filterMap_append (l := x.log ++ _)]
      rfl
    | false =>
      rw [List.filterMap_append, (emplace_failed w type x.blocks c).2, ← List.filterMap_append, ← wraps.destroys live]
      rfl

/-! ### The references -/

theorem original_eq_look (refs : EventHandlerRef.State Unit Unit) :
    original refs = Slots.look (Option.map EventHandlerRef.mOriginal) refs.refs := by
  funext r
  unfold original EventHandlerRef.State.live Slots.look
  cases refs.refs[r]? <;> rfl

theorem original_of_live (live : refs.live a = some v) : original refs a = some v.mOriginal := by
  rw [original, live, Option.map_some]

theorem original_add (v : EventHandlerRef Unit Unit) (calls : List (EventHandlerRef.Call Unit Unit)) (r : Nat) :
    original (refs.add v calls) r = if r = refs.refs.length then some v.mOriginal else original refs r := by
  rw [original_eq_look, original_eq_look]
  exact Slots.look_append

theorem original_put (live : refs.live a = some v) (next : Option (EventHandlerRef Unit Unit))
    (calls : List (EventHandlerRef.Call Unit Unit)) (r : Nat) :
    original (refs.put a next calls) r = if r = a then next.map EventHandlerRef.mOriginal else original refs r := by
  rw [original_eq_look, original_eq_look]
  exact Slots.look_set (List.getElem?_eq_some_iff.mp (EventHandlerRef.live_at live)).1

theorem Refers.same (refers : Refers s refs) (valid : s'.valid = s.valid) (null : s'.null = s.null)
    (nextRef : s'.nextRef = s.nextRef) : Refers s' refs :=
  ⟨nextRef ▸ refers.length, valid ▸ refers.valid, null ▸ refers.null⟩

theorem Refers.live (refers : Refers s refs) (here : isLive s a = true) : ∃ v, refs.live a = some v ∧
    (v.mOriginal = some () ↔ a ∈ s.valid) ∧ (v.mOriginal = none ↔ a ∉ s.valid) := by
  have valid := refers.valid a
  have null := refers.null a
  have either : a ∈ s.valid ∨ a ∈ s.null := by simpa [isLive] using here
  cases live : refs.live a with
  | none => simp_all [original]
  | some v =>
    rw [original_of_live live] at valid null
    refine ⟨v, rfl, ?_⟩
    cases original : v.mOriginal <;> simp_all

/-- A reference is added. -/
theorem Refers.add (refers : Refers s refs) (calls : List (EventHandlerRef.Call Unit Unit))
    (next : s'.nextRef = s.nextRef + 1)
    (valid : ∀ r, r ∈ s'.valid ↔ if r = s.nextRef then v.mOriginal = some () else r ∈ s.valid)
    (null : ∀ r, r ∈ s'.null ↔ if r = s.nextRef then v.mOriginal = none else r ∈ s.null) :
    Refers s' (refs.add v calls) := by
  have length := refers.length
  refine ⟨?_, fun r => ?_, fun r => ?_⟩
  · rw [EventHandlerRef.State.add, List.length_append, length, next]
    rfl
  · rw [valid, original_add, length]
    split
    · exact (Option.some.injEq ..).symm ▸ Iff.rfl
    · exact refers.valid r
  · rw [null, original_add, length]
    split
    · exact (Option.some.injEq ..).symm ▸ Iff.rfl
    · exact refers.null r

/-- A reference is changed, or destroyed. -/
theorem Refers.put {next : Option (EventHandlerRef Unit Unit)} (refers : Refers s refs) (live : refs.live a = some v)
    (calls : List (EventHandlerRef.Call Unit Unit)) (nextRef : s'.nextRef = s.nextRef)
    (valid : ∀ r, r ∈ s'.valid ↔ if r = a then EventHandlerRef.target next = some () else r ∈ s.valid)
    (null : ∀ r, r ∈ s'.null ↔
      if r = a then next.isSome = true ∧ EventHandlerRef.target next = none else r ∈ s.null) :
    Refers s' (refs.put a next calls) := by
  refine ⟨?_, fun r => ?_, fun r => ?_⟩
  · rw [EventHandlerRef.State.put, List.length_set, refers.length, nextRef]
  · rw [valid, original_put live]
    split
    · cases next <;> simp [EventHandlerRef.target]
    · exact refers.valid r
  · rw [null, original_put live]
    split
    · cases next <;> simp [EventHandlerRef.target]
    · exact refers.null r

theorem clearRef_refs (here : isLive s a = true) : (clearRef s a).nextRef = s.nextRef ∧
    ∀ r, (r ∈ (clearRef s a).valid ↔ r ≠ a ∧ r ∈ s.valid) ∧ (r ∈ (clearRef s a).null ↔ r = a ∨ r ∈ s.null) := by
  have either : a ∈ s.valid ∨ a ∈ s.null := by simpa [isLive] using here
  unfold clearRef
  split
  case isTrue =>
    obtain ⟨valid, null, next⟩ := unrefHandler_refs { s with valid := s.valid.erase a, null := insert a s.null }
    rw [valid, null, next]
    exact ⟨rfl, fun r => ⟨Finset.mem_erase, Finset.mem_insert⟩⟩
  case isFalse invalid =>
    refine ⟨rfl, fun r => ⟨?_, ?_⟩⟩
    · exact ⟨fun member => ⟨fun same => invalid (same ▸ member), member⟩, And.right⟩
    · exact ⟨.inr, fun member => member.elim (fun same => same ▸ either.resolve_left invalid) id⟩

theorem copyAssign_refs (here : isLive s a = true) (different : a ≠ b) : (copyAssign s a b).nextRef = s.nextRef ∧
    ∀ r, (r ∈ (copyAssign s a b).valid ↔ if r = a then b ∈ s.valid else r ∈ s.valid) ∧
      (r ∈ (copyAssign s a b).null ↔ if r = a then b ∉ s.valid else r ∈ s.null) := by
  obtain ⟨next, cleared⟩ := clearRef_refs here
  have still : b ∈ (clearRef s a).valid ↔ b ∈ s.valid := (cleared b).1.trans (and_iff_right (Ne.symm different))
  rw [copyAssign, if_neg different]
  by_cases valid : b ∈ s.valid
  · rw [if_pos (still.mpr valid)]
    refine ⟨next, fun r => ⟨?_, ?_⟩⟩
    · by_cases same : r = a <;> simp [refHandler, cleared, same, valid]
    · by_cases same : r = a <;> simp [refHandler, cleared, same, valid]
  · rw [if_neg (still.not.mpr valid)]
    refine ⟨next, fun r => ⟨?_, ?_⟩⟩
    · by_cases same : r = a <;> simp [cleared, same, valid]
    · by_cases same : r = a <;> simp [cleared, same, valid]

/-- A move is a copy that leaves the other reference unset. -/
theorem moveAssign_refs (here : isLive s a = true) (here' : isLive s b = true) (different : a ≠ b) :
    (moveAssign s a b).nextRef = (copyAssign s a b).nextRef ∧
    ∀ r, (r ∈ (moveAssign s a b).valid ↔ r ≠ b ∧ r ∈ (copyAssign s a b).valid) ∧
      (r ∈ (moveAssign s a b).null ↔ r = b ∨ r ∈ (copyAssign s a b).null) := by
  have other := Ne.symm different
  have either : b ∈ s.valid ∨ b ∈ s.null := by simpa [isLive] using here'
  obtain ⟨next, cleared⟩ := clearRef_refs here
  obtain ⟨same, copied⟩ := copyAssign_refs here different
  have still : b ∈ (clearRef s a).valid ↔ b ∈ s.valid := (cleared b).1.trans (and_iff_right other)
  rw [moveAssign, if_neg different, same]
  by_cases valid : b ∈ s.valid
  · rw [if_pos (still.mpr valid)]
    refine ⟨next, fun r => ⟨?_, ?_⟩⟩
    · rw [(copied r).1]
      by_cases at_a : r = a <;> by_cases at_b : r = b <;> simp_all
    · rw [(copied r).2]
      by_cases at_a : r = a <;> simp_all
  · rw [if_neg (still.not.mpr valid)]
    have null := either.resolve_left valid
    refine ⟨next, fun r => ⟨?_, ?_⟩⟩
    · rw [(copied r).1]
      by_cases at_a : r = a <;> by_cases at_b : r = b <;> simp_all
    · rw [(copied r).2]
      by_cases at_a : r = a <;> by_cases at_b : r = b <;> simp_all

/-! ### What the parts do -/

/-- The parts can do `es`, and then follow `s`. -/
def Leads (L : Layout HandlerType) (p : State R) (es : List (Event R)) (s : Ev.State) : Prop :=
  ∃ q, (machine L).run p es = some q ∧ Follows L s q

variable {es fs : List (Event R)}

theorem Follows.same (follows : Follows L s p) (alive : s'.alive = s.alive) (handler : s'.mHandler = s.mHandler)
    (log : s'.log.filterMap HandlerCall.ofAction = s.log.filterMap HandlerCall.ofAction) (valid : s'.valid = s.valid)
    (null : s'.null = s.null) (nextRef : s'.nextRef = s.nextRef) : Follows L s' p :=
  ⟨follows.wraps.same alive handler log, follows.refers.same valid null nextRef⟩

theorem Follows.leads (follows : Follows L s p) : Leads L p [] s := ⟨p, rfl, follows⟩

theorem Leads.append (first : Leads L p es t) (second : ∀ q, Follows L t q → Leads L q fs s) :
    Leads L p (es ++ fs) s := by
  obtain ⟨q, run, follows⟩ := first
  obtain ⟨q', run', follows'⟩ := second q follows
  exact ⟨q', Machine.run_append_some.mpr ⟨q, run, run'⟩, follows'⟩

theorem Leads.returned (leads : Leads L p es s) (result : Result) : Leads L p es { s with returned := result } := by
  obtain ⟨q, run, follows⟩ := leads
  exact ⟨q, run, follows.same rfl rfl rfl rfl rfl rfl⟩

theorem leads_handler {e : AnyEventHandler.Event Unit HandlerType R}
    (h : (AnyEventHandler.machine L).step p.wrapper e = some x) (wraps : Wraps L s x) (refers : Refers s p.refs) :
    Leads L p [.handler e] s := by
  refine ⟨{ p with wrapper := x }, Machine.run_cons.mpr ⟨_, ?_, rfl⟩, wraps, refers⟩
  show ((AnyEventHandler.machine L).step p.wrapper e).map _ = _
  rw [h, Option.map_some]

theorem leads_refs {e : EventHandlerRef.Event Unit} {calls : List (EventHandlerRef.Call Unit Unit)}
    (h : references.step p.refs e = some refs) (log : refs.log = p.refs.log ++ calls)
    (run : (AnyEventHandler.machine L).run p.wrapper (calls.map through) = some x) (wraps : Wraps L s x)
    (refers : Refers s refs) : Leads L p [.refs e] s := by
  refine ⟨⟨x, refs⟩, Machine.run_cons.mpr ⟨_, ?_, rfl⟩, wraps, refers⟩
  have ran : (AnyEventHandler.machine L).run p.wrapper ((refs.log.drop p.refs.log.length).map through) = some x := by
    rw [log, List.drop_left, run]
  exact Option.bind_eq_some_iff.mpr ⟨refs, h, Option.bind_eq_some_iff.mpr ⟨x, ran, rfl⟩⟩

/-! ### The calls of a reference -/

theorem Wraps.run_ref (wraps : Wraps L s x) (alive : s.alive = true) (valid : v.mOriginal = some ()) :
    ∃ x', (AnyEventHandler.machine L).run x (v.ref.map through) = some x' ∧ Wraps L (refHandler s) x' := by
  obtain ⟨w, live⟩ := wraps.wrapper alive
  refine ⟨x.call w.ref, ?_, wraps.uses live (uses_ref s) (fun _ _ => rfl) (fun _ => rfl) fun _ _ => rfl⟩
  rw [EventHandlerRef.ref, valid]
  exact Machine.run_cons.mpr ⟨_, Option.bind_eq_some_iff.mpr ⟨w, live, rfl⟩, rfl⟩

theorem run_ref_none (null : v.mOriginal = none) :
    (AnyEventHandler.machine L).run x (v.ref.map through) = some x := by
  rw [EventHandlerRef.ref, null]
  rfl

theorem Wraps.run_unref (wraps : Wraps L s x) (alive : s.alive = true) (valid : v.mOriginal = some ()) :
    ∃ x', (AnyEventHandler.machine L).run x (v.unref.map through) = some x' ∧ Wraps L (unrefHandler s) x' := by
  obtain ⟨w, live⟩ := wraps.wrapper alive
  refine ⟨x.call w.unref, ?_, wraps.uses live (uses_unref s) (fun _ _ => rfl) (fun _ => rfl) fun _ _ => rfl⟩
  rw [EventHandlerRef.unref, valid]
  exact Machine.run_cons.mpr ⟨_, Option.bind_eq_some_iff.mpr ⟨w, live, rfl⟩, rfl⟩

theorem Wraps.run_clear (wraps : Wraps L s x) (alive : s.alive = true) (valid : v.mOriginal = some () ↔ a ∈ s.valid) :
    ∃ x', (AnyEventHandler.machine L).run x (v.unref.map through) = some x' ∧ Wraps L (clearRef s a) x' := by
  unfold clearRef
  split
  case isTrue here =>
    have moved : Wraps L { s with valid := s.valid.erase a, null := insert a s.null } x := wraps.same rfl rfl rfl
    exact moved.run_unref alive (valid.mpr here)
  case isFalse absent =>
    have null : v.mOriginal = none := by
      cases original : v.mOriginal with
      | none => rfl
      | some o => exact absurd (valid.mp original) absent
    refine ⟨x, ?_, wraps⟩
    rw [EventHandlerRef.unref, null]
    rfl

/-! ### The operations on references -/

theorem Refers.fresh (refers : Refers s refs) : s.nextRef ∉ s.valid ∧ s.nextRef ∉ s.null := by
  have absent : original refs s.nextRef = none := by
    rw [original_eq_look, Slots.look, List.getElem?_eq_none refers.length.le, Option.bind_none]
  simp [refers.valid, refers.null, absent]

theorem Refers.newRef (refers : Refers s refs) (valid : v.mOriginal = some ())
    (calls : List (EventHandlerRef.Call Unit Unit)) : Refers (Ev.newRef s) (refs.add v calls) := by
  refine refers.add calls rfl (fun r => ?_) fun r => ?_
  · by_cases same : r = s.nextRef <;> simp [Ev.newRef, refHandler, same, valid]
  · show r ∈ s.null ↔ _
    by_cases same : r = s.nextRef <;> simp [same, valid, refers.fresh]

theorem Refers.newNull (refers : Refers s refs) (null : v.mOriginal = none)
    (calls : List (EventHandlerRef.Call Unit Unit)) :
    Refers { s with null := insert s.nextRef s.null, nextRef := s.nextRef + 1 } (refs.add v calls) := by
  refine refers.add calls rfl (fun r => ?_) fun r => ?_
  · by_cases same : r = s.nextRef <;> simp [same, null, refers.fresh]
  · by_cases same : r = s.nextRef <;> simp [same, null]

theorem leads_newRef (follows : Follows L s p) (alive : s.alive = true) :
    Leads L p [.refs (.fromHandler ())] (newRef s) := by
  obtain ⟨wraps, refers⟩ := follows
  have moved : Wraps L { s with valid := insert s.nextRef s.valid, nextRef := s.nextRef + 1 } p.wrapper :=
    wraps.same rfl rfl rfl
  obtain ⟨x, run, wraps⟩ := moved.run_ref (v := EventHandlerRef.of (fun _ => ()) ()) alive rfl
  exact leads_refs rfl rfl run wraps (refers.newRef rfl _)

theorem leads_copyRef (follows : Follows L s p) (alive : s.alive = true) (here : isLive s r = true) :
    Leads L p [.refs (.copy r)] (copyRef s r) := by
  obtain ⟨wraps, refers⟩ := follows
  obtain ⟨v, live, valid, null⟩ := refers.live here
  have step : references.step p.refs (.copy r) = some (p.refs.add v v.ref) :=
    Option.bind_eq_some_iff.mpr ⟨v, live, rfl⟩
  unfold copyRef
  split
  case isTrue member =>
    have moved : Wraps L { s with valid := insert s.nextRef s.valid, nextRef := s.nextRef + 1 } p.wrapper :=
      wraps.same rfl rfl rfl
    obtain ⟨x, run, wraps⟩ := moved.run_ref alive (valid.mpr member)
    exact leads_refs step rfl run wraps (refers.newRef (valid.mpr member) _)
  case isFalse absent =>
    have unset := null.mpr absent
    exact leads_refs step rfl (run_ref_none unset) (wraps.same rfl rfl rfl) (refers.newNull unset _)

theorem leads_moveRef (follows : Follows L s p) (here : isLive s r = true) :
    Leads L p [.refs (.move r)] (moveRef s r) := by
  obtain ⟨wraps, refers⟩ := follows
  obtain ⟨v, live, valid, null⟩ := refers.live here
  have step : references.step p.refs (.move r) = some ((p.refs.put r (some v.movedFrom) []).add v []) :=
    Option.bind_eq_some_iff.mpr ⟨v, live, rfl⟩
  have log : ((p.refs.put r (some v.movedFrom) []).add v []).log = p.refs.log ++ [] := List.append_nil _
  have emptied : Refers { s with valid := s.valid.erase r, null := insert r s.null }
      (p.refs.put r (some v.movedFrom) []) := by
    refine refers.put live [] rfl (fun i => ?_) fun i => ?_
    · by_cases same : i = r <;> simp [same, EventHandlerRef.target, EventHandlerRef.movedFrom]
    · by_cases same : i = r <;> simp [same, EventHandlerRef.target, EventHandlerRef.movedFrom]
  have fresh := refers.fresh
  unfold moveRef
  split
  case isTrue member =>
    refine leads_refs step log rfl (wraps.same rfl rfl rfl) (emptied.add [] rfl (fun i => ?_) fun i => ?_)
    · by_cases same : i = s.nextRef <;> simp [same, valid, member]
    · have other : s.nextRef ≠ r := fun same => fresh.1 (same ▸ member)
      by_cases same : i = s.nextRef <;> simp [same, null, member, fresh, other]
  case isFalse absent =>
    have either : r ∈ s.valid ∨ r ∈ s.null := by simpa [isLive] using here
    have still : Refers s (p.refs.put r (some v.movedFrom) []) :=
      emptied.same (Finset.erase_eq_of_notMem absent).symm
        (Finset.insert_eq_of_mem (either.resolve_left absent)).symm rfl
    exact leads_refs step log rfl (wraps.same rfl rfl rfl) (still.newNull (null.mpr absent) [])

theorem Refers.copyAssign (refers : Refers s refs) (here : isLive s a = true) (live : refs.live a = some v)
    (valid : u.mOriginal = some () ↔ b ∈ s.valid) (null : u.mOriginal = none ↔ b ∉ s.valid) (different : a ≠ b)
    (calls : List (EventHandlerRef.Call Unit Unit)) : Refers (Ev.copyAssign s a b) (refs.put a (some u) calls) := by
  obtain ⟨next, copied⟩ := copyAssign_refs here different
  refine refers.put live calls next (fun r => ?_) fun r => ?_
  · rw [(copied r).1, ← valid]
    rfl
  · rw [(copied r).2, ← null, Option.isSome_some]
    simp [EventHandlerRef.target]

theorem Wraps.run_copyAssign (wraps : Wraps L s x) (alive : s.alive = true) (different : a ≠ b)
    (first : v.mOriginal = some () ↔ a ∈ s.valid) (valid : u.mOriginal = some () ↔ b ∈ s.valid)
    (null : u.mOriginal = none ↔ b ∉ s.valid) (here : isLive s a = true) :
    ∃ x', (AnyEventHandler.machine L).run x ((v.unref ++ u.ref).map through) = some x' ∧
      Wraps L (copyAssign s a b) x' := by
  obtain ⟨y, cleared, wraps'⟩ := wraps.run_clear alive first
  have alive' : (clearRef s a).alive = true := (refs_clearRef s a).alive.trans alive
  have still : b ∈ (clearRef s a).valid ↔ b ∈ s.valid :=
    ((clearRef_refs here).2 b).1.trans (and_iff_right (Ne.symm different))
  rw [copyAssign, if_neg different, List.map_append]
  by_cases member : b ∈ s.valid
  · rw [if_pos (still.mpr member)]
    have moved : Wraps L { clearRef s a with
        valid := insert a (clearRef s a).valid, null := (clearRef s a).null.erase a } y := wraps'.same rfl rfl rfl
    obtain ⟨x', run, wraps''⟩ := moved.run_ref alive' (valid.mpr member)
    exact ⟨x', Machine.run_append_some.mpr ⟨y, cleared, run⟩, wraps''⟩
  · rw [if_neg (still.not.mpr member)]
    exact ⟨y, Machine.run_append_some.mpr ⟨y, cleared, run_ref_none (null.mpr member)⟩, wraps'⟩

theorem leads_copyAssign (follows : Follows L s p) (alive : s.alive = true) (here : isLive s a = true)
    (here' : isLive s b = true) : Leads L p [.refs (.copyAssign a b)] (copyAssign s a b) := by
  obtain ⟨wraps, refers⟩ := follows
  obtain ⟨v, live, first, _⟩ := refers.live here
  obtain ⟨u, live', valid, null⟩ := refers.live here'
  by_cases same : a = b
  · have step : references.step p.refs (.copyAssign a b) = some p.refs :=
      Option.bind_eq_some_iff.mpr ⟨v, live, Option.bind_eq_some_iff.mpr ⟨u, live', if_pos same⟩⟩
    rw [copyAssign, if_pos same]
    exact leads_refs step (List.append_nil _).symm rfl wraps refers
  · have step : references.step p.refs (.copyAssign a b) = some (p.refs.put a (some u) (v.unref ++ u.ref)) :=
      Option.bind_eq_some_iff.mpr ⟨v, live, Option.bind_eq_some_iff.mpr ⟨u, live', if_neg same⟩⟩
    obtain ⟨x, run, wraps⟩ := wraps.run_copyAssign alive same first valid null here
    exact leads_refs step rfl run wraps (refers.copyAssign here live valid null same _)

theorem leads_moveAssign (follows : Follows L s p) (alive : s.alive = true) (here : isLive s a = true)
    (here' : isLive s b = true) : Leads L p [.refs (.moveAssign a b)] (moveAssign s a b) := by
  obtain ⟨wraps, refers⟩ := follows
  obtain ⟨v, live, first, _⟩ := refers.live here
  obtain ⟨u, live', valid, null⟩ := refers.live here'
  by_cases same : a = b
  · have step : references.step p.refs (.moveAssign a b) = some p.refs :=
      Option.bind_eq_some_iff.mpr ⟨v, live, Option.bind_eq_some_iff.mpr ⟨u, live', if_pos same⟩⟩
    rw [moveAssign, if_pos same]
    exact leads_refs step (List.append_nil _).symm rfl wraps refers
  · have step : references.step p.refs (.moveAssign a b) =
        some ((p.refs.put a (some u) v.unref).put b (some u.movedFrom) []) :=
      Option.bind_eq_some_iff.mpr ⟨v, live, Option.bind_eq_some_iff.mpr ⟨u, live', if_neg same⟩⟩
    obtain ⟨x, run, wraps'⟩ := wraps.run_clear alive first
    obtain ⟨next, moved⟩ := moveAssign_refs here here' same
    have copied := refers.copyAssign here live valid null same v.unref
    have still : (p.refs.put a (some u) v.unref).live b = some u :=
      (EventHandlerRef.live_put_of_ne same).trans live'
    refine leads_refs step (List.append_nil _) run ?_ (copied.put still [] next (fun r => ?_) fun r => ?_)
    · rw [moveAssign, if_neg same]
      dsimp only
      split <;> exact wraps'.same rfl rfl rfl
    · rw [(moved r).1]
      by_cases at_b : r = b <;> simp [at_b, EventHandlerRef.target, EventHandlerRef.movedFrom]
    · rw [(moved r).2]
      by_cases at_b : r = b <;> simp [at_b, EventHandlerRef.target, EventHandlerRef.movedFrom]

theorem leads_dropRef (follows : Follows L s p) (alive : s.alive = true) (here : isLive s r = true) :
    Leads L p [.refs (.destroy r)] (dropRef s r) := by
  obtain ⟨wraps, refers⟩ := follows
  obtain ⟨v, live, valid, _⟩ := refers.live here
  have step : references.step p.refs (.destroy r) = some (p.refs.put r none v.unref) :=
    Option.bind_eq_some_iff.mpr ⟨v, live, rfl⟩
  obtain ⟨x, run, wraps'⟩ := wraps.run_clear alive valid
  obtain ⟨next, cleared⟩ := clearRef_refs here
  refine leads_refs step rfl run (wraps'.same rfl rfl rfl) (refers.put live _ next (fun i => ?_) fun i => ?_)
  · show i ∈ (clearRef s r).valid ↔ _
    by_cases same : i = r <;> simp [cleared, same, EventHandlerRef.target]
  · by_cases same : i = r <;> simp [dropRef, cleared, same]

/-! ### The operations on the handler -/

theorem leads_stop (follows : Follows L s p) (alive : s.alive = true) (stopped : stopHandler s = some s') :
    Leads L p [.handler (.stop ())] s' := by
  obtain ⟨wraps, refers⟩ := follows
  obtain ⟨w, live⟩ := wraps.wrapper alive
  have unmoved := unmoved_stopHandler stopped
  have step : (AnyEventHandler.machine L).step p.wrapper (.stop ()) = some (p.wrapper.call w.stop) :=
    Option.bind_eq_some_iff.mpr ⟨w, live, rfl⟩
  apply leads_handler step
  · exact wraps.uses live (uses_stop stopped) (fun _ _ => rfl) (fun _ => rfl) fun _ _ => rfl
  · exact refers.same unmoved.valid unmoved.null unmoved.nextRef

theorem leads_shutdown (follows : Follows L s p) (alive : s.alive = true) (h : shutdown s = some s') :
    Leads L p [.handler (.stop ())] s' := by
  have requested : Follows L { s with mStop := { s.mStop with requested := true } } p :=
    follows.same rfl rfl rfl rfl rfl rfl
  exact leads_stop requested alive h

theorem leads_destruct (follows : Follows L s p) (alive : s.alive = true) (h : destruct s = some s') :
    Leads L p [.handler (.stop ()), .handler (.destroy ())] s' := by
  obtain ⟨t, stopped, rfl⟩ := Option.map_eq_some_iff.mp h
  have still : t.alive = true := (stopHandler_alive stopped).trans alive
  refine (leads_shutdown follows alive stopped).append fun q follows => ?_
  obtain ⟨wraps, refers⟩ := follows
  obtain ⟨w, live⟩ := wraps.wrapper still
  have step : (AnyEventHandler.machine L).step q.wrapper (.destroy ()) =
      some (q.wrapper.put () none w.destroy.2) := Option.bind_eq_some_iff.mpr ⟨w, live, rfl⟩
  apply leads_handler step
  · apply wraps.destroy live _ (destroyHandler_handler _)
    · unfold destroyHandler
      cases t.mHandler <;> simp [HandlerCall.ofAction, List.filterMap_cons]
    · unfold destroyHandler
      cases t.mHandler <;> rfl
  · apply refers.same
    all_goals
      unfold destroyHandler
      cases t.mHandler <;> rfl

theorem leads_start (follows : Follows L s p) (alive : s.alive = true) (launch : Launch) :
    Leads L p (starts s launch) (start s launch).1 := by
  have unmoved := unmoved_start s launch
  unfold starts
  cases started : s.mStarted with
  | true =>
    have same : start s launch = (s, some true) := if_pos started
    rw [same]
    exact follows.leads
  | false =>
    obtain ⟨wraps, refers⟩ := follows
    obtain ⟨w, live⟩ := wraps.wrapper alive
    have step : (AnyEventHandler.machine L).step p.wrapper (.start () (launch == .yes)) =
        some (p.wrapper.call (w.start (launch == .yes)).2) := Option.bind_eq_some_iff.mpr ⟨w, live, rfl⟩
    apply leads_handler step
    · have used : Wraps L (startHandler s launch).1 (p.wrapper.call (w.start (launch == .yes)).2) :=
        wraps.uses live (uses_startHandler s launch) (fun _ _ => rfl) (fun _ => rfl) fun _ _ => rfl
      unfold Ev.start
      rw [if_neg (started ▸ Bool.false_ne_true)]
      split <;> (rename_i launched; rw [launched] at used; exact used.same rfl rfl rfl)
    · exact refers.same unmoved.valid unmoved.null unmoved.nextRef

theorem leads_emplace (follows : Follows L s p) (alive : s.alive = true) (type : HandlerType) (built : Bool) :
    Leads L p [.handler (.emplace () (some c.memres) type (c.outcome built))] (emplace s type built) := by
  obtain ⟨wraps, refers⟩ := follows
  obtain ⟨w, live⟩ := wraps.wrapper alive
  have emplaced := emplaced_emplace s type built
  have step : (AnyEventHandler.machine L).step p.wrapper (.emplace () (some c.memres) type (c.outcome built)) =
      some (p.wrapper.put () (some (w.emplace L c.memres type p.wrapper.blocks (c.outcome built)).1)
        (w.emplace L c.memres type p.wrapper.blocks (c.outcome built)).2) :=
    Option.bind_eq_some_iff.mpr ⟨w, live, rfl⟩
  apply leads_handler step
  · exact wraps.emplace live type built c
  · exact refers.same emplaced.valid emplaced.null emplaced.nextRef

theorem leads_emplaceHandler (follows : Follows L s p) (alive : s.alive = true)
    (h : emplaceHandler s type built = some s') : Leads L p (emplaces s c type built) s' := by
  unfold emplaceHandler at h
  unfold emplaces
  split at h
  case isTrue has =>
    rw [if_pos has]
    split at h
    case h_1 => cases h
    case h_2 t stopped =>
      obtain rfl := Option.some.inj h
      refine (leads_shutdown follows alive stopped).append fun q follows => ?_
      have reset : Follows L { t with mStop := ⟨t.nextSource, false⟩, nextSource := t.nextSource + 1 } q :=
        follows.same rfl rfl rfl rfl rfl rfl
      exact leads_emplace reset ((stopHandler_alive stopped).trans alive) type built
  case isFalse hasnt =>
    obtain rfl := Option.some.inj h
    rw [if_neg hasnt]
    exact leads_emplace follows alive type built

theorem emplaceHandler_started (h : emplaceHandler s type built = some s') : s'.mStarted = s.mStarted := by
  have emplaced : ∀ t : Ev.State, (emplace t type built).mStarted = t.mStarted := by
    intro t
    unfold emplace destroyHandler
    cases built <;> cases t.mHandler <;> rfl
  unfold emplaceHandler at h
  split at h
  · split at h
    · cases h
    case h_2 t stopped =>
      obtain rfl := Option.some.inj h
      obtain ⟨_, rfl⟩ | ⟨_, _, _, rfl⟩ := stopHandler_cases stopped
      · exact emplaced _
      · exact emplaced _
  · obtain rfl := Option.some.inj h
    exact emplaced s

theorem leads_emplaceAndStart {result : Result} (follows : Follows L s p) (alive : s.alive = true)
    (h : emplaceAndStart s type built launch result = some s') :
    Leads L p (emplacesAndStarts s c type built launch) s' := by
  unfold emplaceAndStart at h
  unfold emplacesAndStarts
  split at h
  · cases h
  case h_2 t emplaced =>
    have alive' : t.alive = true := (emplaceHandler_alive emplaced).trans alive
    have next := (emplaced_emplaceHandler emplaced).nextRef
    refine (leads_emplaceHandler follows alive emplaced).append fun q follows => ?_
    cases built with
    | false =>
      obtain rfl := Option.some.inj h
      exact follows.leads.returned .threw
    | true =>
      have refs := (refs_newRef t).trans (refs_dropRef (newRef t) t.nextRef)
      have idle : starts (R := R) s launch = starts (dropRef (newRef t) t.nextRef) launch := by
        rw [starts, starts, refs.started, emplaceHandler_started emplaced]
      have there : isLive (newRef t) t.nextRef = true := by simp [isLive, newRef, refHandler]
      have dropped : Leads L q ([.refs (.fromHandler ())] ++ [.refs (.destroy t.nextRef)])
          (dropRef (newRef t) t.nextRef) :=
        (leads_newRef follows alive').append fun _ follows => leads_dropRef follows alive' there
      have leads : Leads L q ([.refs (.fromHandler ()), .refs (.destroy s.nextRef)] ++ starts s launch)
          (start (dropRef (newRef t) t.nextRef) launch).1 := by
        rw [← next, idle]
        exact dropped.append fun _ follows => leads_start follows (refs.alive.trans alive') launch
      split at h
      · split at h
        all_goals
          rename_i launched
          rw [launched] at leads
          obtain rfl := Option.some.inj h
          exact leads.returned _
      · contradiction

/-! ### The service -/

theorem Follows.initContext (follows : Follows L s p) (r : Int) : Follows L (initContext s r).1 p := by
  unfold Ev.initContext
  split
  · exact follows
  · refine follows.same rfl rfl ?_ rfl rfl rfl
    cases s.mUsbCtx <;> simp [HandlerCall.ofAction, List.filterMap_cons]

theorem leads_made {k : Int} {result failure : Result} (follows : Follows L s p) (alive : s.alive = true)
    (h : (match initContext s k with
      | (s, ec) =>
        if ec.isError then some { s with returned := failure } else emplaceAndStart s type built launch result) =
      some s') : Leads L p (if k ≠ 0 then [] else emplacesAndStarts s c type built launch) s' := by
  by_cases failed : k ≠ 0
  · rw [initContext_failed failed] at h
    dsimp only at h
    rw [if_pos ((isError_makeUsbErrorCode k).mpr failed)] at h
    obtain rfl := Option.some.inj h
    rw [if_pos failed]
    exact follows.leads.returned failure
  · obtain rfl : k = 0 := not_not.mp failed
    rw [if_neg failed]
    have h : emplaceAndStart (initContext s 0).1 type built launch result = some s' := h
    have leads := leads_emplaceAndStart (c := c) (follows.initContext 0) alive h
    exact leads

theorem leads_call {e : Operation} (follows : Follows L s p) (alive : s.alive = true) (h : call s e = some s') :
    Leads L p (performs s c e) s' := by
  cases e with
  | initContext k =>
    obtain rfl := Option.some.inj h
    exact (follows.initContext k).leads.returned _
  | emplaceHandler type built =>
    simp only [call, Option.ite_none_right_eq_some, Option.map_eq_some_iff] at h
    obtain ⟨_, t, emplaced, rfl⟩ := h
    have alive' := (emplaceHandler_alive emplaced).trans alive
    apply (leads_emplaceHandler follows alive emplaced).append
    intro q follows
    cases built with
    | false => exact follows.leads.returned .threw
    | true => exact (leads_newRef follows alive').returned .reference
  | start launch =>
    have leads := leads_start follows alive launch
    simp only [call] at h
    split at h
    all_goals
      rename_i launched
      rw [launched] at leads
      obtain rfl := Option.some.inj h
      exact leads.returned _
  | requestStop =>
    obtain rfl := Option.some.inj h
    have same : Follows L (requestStop s) p := by
      refine follows.same rfl rfl ?_ rfl rfl rfl
      simp [requestStop, HandlerCall.ofAction, List.filterMap_cons]
    exact same.leads.returned .none
  | shutdown =>
    obtain ⟨t, stopped, rfl⟩ := Option.map_eq_some_iff.mp h
    exact (leads_shutdown follows alive stopped).returned .none
  | destruct =>
    obtain ⟨t, destructed, rfl⟩ := Option.map_eq_some_iff.mp h
    exact (leads_destruct follows alive destructed).returned .none
  | makeContext k type built launch =>
    simp only [call, makeContext, Option.ite_none_right_eq_some] at h
    exact leads_made follows alive h.2
  | getHandlerService k built launch =>
    simp only [call, getHandlerService, Option.ite_none_right_eq_some] at h
    obtain ⟨_, h⟩ := h
    split at h
    case isTrue started =>
      obtain rfl := Option.some.inj h
      have nothing : performs s c (.getHandlerService k built launch) = [] := if_pos (by simp [started])
      rw [nothing]
      exact follows.leads.returned .service
    case isFalse idle =>
      have leads := leads_made (c := c) follows alive h
      simpa [performs, idle] using leads
  | handler =>
    simp only [call, Option.ite_none_right_eq_some] at h
    obtain rfl := Option.some.inj h.2
    exact (leads_newRef follows alive).returned .reference
  | copy r =>
    simp only [call, Option.ite_none_right_eq_some, Bool.and_eq_true] at h
    obtain rfl := Option.some.inj h.2
    exact (leads_copyRef follows alive h.1.1).returned .reference
  | move r =>
    simp only [call, Option.ite_none_right_eq_some, Bool.and_eq_true] at h
    obtain rfl := Option.some.inj h.2
    exact (leads_moveRef follows h.1.1).returned .reference
  | copyAssign a b =>
    simp only [call, Option.ite_none_right_eq_some, Bool.and_eq_true] at h
    obtain rfl := Option.some.inj h.2
    exact (leads_copyAssign follows alive h.1.1 h.1.2).returned .reference
  | moveAssign a b =>
    simp only [call, Option.ite_none_right_eq_some, Bool.and_eq_true] at h
    obtain rfl := Option.some.inj h.2
    exact (leads_moveAssign follows alive h.1.1 h.1.2).returned .reference
  | drop r =>
    simp only [call, Option.ite_none_right_eq_some] at h
    obtain rfl := Option.some.inj h.2
    exact (leads_dropRef follows alive h.1).returned .none

/-! ### Runs -/

/-- The calls of the service, each with the resource and the failure of a handler it constructs. -/
def service : Machine Ev.State (Operation × Construction R) := ⟨fun s e => Ev.machine.step s e.1⟩

/-- A wrapper constructed by default, and no references. -/
def initial (memres : R) (size align : Nat) : State R where
  wrapper := ({} : AnyEventHandler.State Unit HandlerType R).put ()
    (some { mVtable := { size, align }, mMemres := memres }) []

theorem initial_follows (memres : R) (size align : Nat) : Follows L {} (initial memres size align) := by
  refine ⟨⟨?_, ?_, fun _ => ?_, fun h stored => ?_, rfl⟩, ⟨rfl, fun r => ?_, fun r => ?_⟩⟩
  · exact AnyEventHandler.tracked_empty.replace rfl rfl
  · simp [initial, AnyEventHandler.State.put]
  · rw [initial, AnyEventHandler.storageOf_put_self]
    rfl
  · cases stored
  · simp [initial, original, EventHandlerRef.State.live]
  · simp [initial, original, EventHandlerRef.State.live]

theorem Wraps.returned (wraps : Wraps L s x) (gone : s.alive = false) (below : block < x.blocks) :
    AnyEventHandler.Returned L block (history x.log block) := by
  rcases wraps.tracked.exact.settled block below with ⟨_, w, _, live, _⟩ | given
  · have none := wraps.alive.trans gone
    rw [live] at none
    cases none
  · exact given

theorem service_step {e : Operation × Construction R} (follows : Follows L s p) (h : service.step s e = some s') :
    Leads L p (performs s e.2 e.1) s' := by
  obtain ⟨alive, called⟩ := step_call h
  exact leads_call follows alive called

/-- Every run of the service is one of its wrapper and its references, which owns the storage exactly and has given
it all back once the service is gone. -/
theorem service_follows_its_parts (L : Layout HandlerType) (memres : R) (size align : Nat)
    (cs : List (Operation × Construction R)) (s : Ev.State) (h : service.run {} cs = some s) :
    ∃ q, (machine L).run (initial memres size align) (service.translate (fun t e => performs t e.2 e.1) {} cs) =
        some q ∧ Follows L s q ∧ AnyEventHandler.Exact L q.wrapper ∧
      (s.alive = false → ∀ block < q.wrapper.blocks,
        AnyEventHandler.Returned L block (history q.wrapper.log block)) := by
  obtain ⟨q, run, follows⟩ := Machine.run_translate service_step (initial_follows memres size align) h
  exact ⟨q, run, follows, follows.wraps.tracked.exact, fun gone _ below => follows.wraps.returned gone below⟩

/-- A handler is replaced, the next one cannot be constructed, and a reference outlives the service. -/
theorem service_follows_its_parts_replaced :
    ∃ s, service.run {} [(.getHandlerService 0 true .yes, (⟨1, true⟩ : Construction Nat)), (.handler, ⟨0, true⟩),
        (.move 1, ⟨0, true⟩), (.drop 2, ⟨0, true⟩), (.emplaceHandler .custom true, ⟨2, true⟩),
        (.emplaceHandler .trivial false, ⟨3, true⟩), (.destruct, ⟨0, true⟩)] = some s ∧
    ∃ q, (machine ⟨fun _ => 8, fun _ => 8⟩).run (initial 0 0 0) (service.translate (fun t e => performs t e.2 e.1) {}
        [(.getHandlerService 0 true .yes, ⟨1, true⟩), (.handler, ⟨0, true⟩), (.move 1, ⟨0, true⟩),
        (.drop 2, ⟨0, true⟩), (.emplaceHandler .custom true, ⟨2, true⟩), (.emplaceHandler .trivial false, ⟨3, true⟩),
        (.destruct, ⟨0, true⟩)]) = some q ∧ Follows ⟨fun _ => 8, fun _ => 8⟩ s q ∧
      AnyEventHandler.Exact ⟨fun _ => 8, fun _ => 8⟩ q.wrapper ∧
      (s.alive = false → ∀ block < q.wrapper.blocks,
        AnyEventHandler.Returned ⟨fun _ => 8, fun _ => 8⟩ block (history q.wrapper.log block)) := by
  refine Exists.imp (fun s run => ⟨run, service_follows_its_parts _ _ _ _ _ s run⟩) (Option.isSome_iff_exists.mp ?_)
  rfl

end CoUsb.Ev.Parts

import CoUsb.Hotplug.Outcomes
import CoUsb.Lib.Account

/-!
# The registration with libusb

Every handle libusb has returned is in one place: in `m_handle`, with a call of `shutdown` that is about to
deregister it, or deregistered. `close` deregisters it and leaves it in `m_handle`.
-/

namespace CoUsb.Hotplug

variable {s s' : State} {e : Event} {es : List Event} {k h : Nat} {c old : Shutdown}

/-! ### The law -/

/-- The callback was not taken over by a call of `shutdown` that is about to deregister it. -/
def Registered (s : State) (callback : Nat × DeviceTriplet) : Prop :=
  callback ∈ s.callbacks ∧ .exchanged callback.1 ∉ s.shutdowns

structure Truthful (s : State) : Prop where
  handle : s.mHandle ≠ 0 ↔ ∃ callback, Registered s callback
  filter : ∀ callback, Registered s callback → callback.2 = s.mFilter
  once : s.deregistrations.Nodup

def Accepting (s : State) : Prop :=
  (∀ triplet, (bind s triplet).returned = {} ∧ (bind s triplet).mFilter = triplet) ∧
    (listen s 0).returned = {} ∧ (listen s 0).mHandle = s.nextHandle

/-- After a successful `close`, and after `shutdown`, the acceptor can be bound and listen again. -/
def Reopens (s : State) : Event → Prop
  | .close => s.mHandle ≠ 0 → Accepting (close s)
  | .shutdown => Accepting (shutdown s)
  | _ => True

/-- No `close` finds a callback registered, and no `bind` with an error argument changes the filter of one. -/
def KeepsRegistration (s : State) : Event → Prop
  | .bindEc triplet => s.mHandle ≠ 0 → triplet = s.mFilter
  | .close => s.mHandle = 0
  | _ => True

instance (s : State) : ∀ e, Decidable (KeepsRegistration s e)
  | .bindEc _ => inferInstanceAs (Decidable (_ → _))
  | .close => inferInstanceAs (Decidable (_ = _))
  | .accept _ | .requestStop _ | .stopFn _ | .awaitReady _ | .stopTest _ | .awaitSuspend _ | .awaitResume _ | .finish _
  | .arrived _ | .left _ | .bind _ | .listen _ | .shutdown | .deregister _ | .walk _ | .post _ | .relock _ =>
    isTrue trivial

/-! ### Where the handles are -/

def Shutdown.pending : Shutdown → Option Nat
  | .exchanged handle => some handle
  | _ => none

def held (s : State) : List Nat := if s.mHandle = 0 then [] else [s.mHandle]

def pending (s : State) : List Nat := s.shutdowns.filterMap Shutdown.pending

theorem mem_pending : h ∈ pending s ↔ .exchanged h ∈ s.shutdowns := by
  constructor
  · intro member
    obtain ⟨c, call, same⟩ := List.mem_filterMap.mp member
    cases c with
    | exchanged handle => exact Option.some.inj same ▸ call
    | _ => cases same
  · exact fun call => List.mem_filterMap.mpr ⟨_, call, rfl⟩

/-- Every handle in one place, and the callbacks registered are those not deregistered yet. -/
structure Registry (s : State) : Prop where
  distinct : (held s ++ (pending s ++ s.deregistrations)).Nodup
  issued : ∀ h ∈ held s ++ (pending s ++ s.deregistrations), 0 < h ∧ h < s.nextHandle
  next : 0 < s.nextHandle
  callbacks : ∀ callback ∈ s.callbacks, callback.1 ∈ held s ++ pending s
  current : s.mHandle ≠ 0 → (s.mHandle, s.mFilter) ∈ s.callbacks
  filter : s.mHandle ≠ 0 → ∀ callback ∈ s.callbacks, callback.1 = s.mHandle → callback.2 = s.mFilter

theorem held_of_ne (registered : s.mHandle ≠ 0) : held s = [s.mHandle] := if_neg registered

theorem held_of_eq (free : s.mHandle = 0) : held s = [] := if_pos free

theorem mem_held : h ∈ held s ↔ s.mHandle ≠ 0 ∧ h = s.mHandle := by
  unfold held
  split
  case isTrue free => simp [free]
  case isFalse registered => simp [registered]

theorem registry_initial : Registry {} :=
  ⟨List.nodup_nil, fun _ member => absurd member (List.not_mem_nil), Nat.one_pos,
    fun _ member => absurd member (List.not_mem_nil), fun registered => absurd rfl registered,
    fun registered => absurd rfl registered⟩

theorem Registry.registered (registry : Registry s) {callback : Nat × DeviceTriplet} (now : Registered s callback) :
    s.mHandle ≠ 0 ∧ callback.1 = s.mHandle := by
  rcases List.mem_append.mp (registry.callbacks callback now.1) with here | leaving
  · exact mem_held.mp here
  · exact absurd (mem_pending.mp leaving) now.2

theorem Registry.not_pending (registry : Registry s) (registered : s.mHandle ≠ 0) : s.mHandle ∉ pending s := by
  have distinct := registry.distinct
  rw [held_of_ne registered, List.singleton_append, List.nodup_cons] at distinct
  exact fun leaving => distinct.1 (List.mem_append_left _ leaving)

theorem Registry.truthful (registry : Registry s) : Truthful s := by
  refine ⟨⟨fun registered => ?_, fun ⟨_, now⟩ => (registry.registered now).1⟩, fun callback now => ?_, ?_⟩
  · exact ⟨_, registry.current registered, fun call => registry.not_pending registered (mem_pending.mpr call)⟩
  · obtain ⟨registered, same⟩ := registry.registered now
    exact registry.filter registered callback now.1 same
  · exact (List.nodup_append.mp (List.nodup_append.mp registry.distinct).2.1).2.1

/-! ### What a step does to the registration -/

/-- A step that leaves the registration alone; without one the filter is free. -/
structure SameRegistration (s s' : State) : Prop where
  mHandle : s'.mHandle = s.mHandle
  mFilter : s.mHandle ≠ 0 → s'.mFilter = s.mFilter
  callbacks : s'.callbacks = s.callbacks
  deregistrations : s'.deregistrations = s.deregistrations
  nextHandle : s'.nextHandle = s.nextHandle
  pending : (pending s').Perm (pending s)

theorem Registry.congr (registry : Registry s) (same : SameRegistration s s') : Registry s' := by
  obtain ⟨mHandle, mFilter, callbacks, deregistrations, nextHandle, leaving⟩ := same
  have holds : held s' = held s := by rw [held, mHandle, held]
  have places : (held s' ++ (pending s' ++ s'.deregistrations)).Perm
      (held s ++ (pending s ++ s.deregistrations)) := by
    rw [holds, deregistrations]
    exact (leaving.append_right _).append_left _
  refine ⟨places.nodup_iff.mpr registry.distinct, fun h member => ?_, nextHandle ▸ registry.next,
    fun callback member => ?_, fun registered => ?_, fun registered callback member here => ?_⟩
  · rw [nextHandle]
    exact registry.issued h (places.mem_iff.mp member)
  · rw [callbacks] at member
    rw [holds]
    exact (leaving.append_left _).mem_iff.mpr (registry.callbacks callback member)
  · rw [mHandle] at registered ⊢
    rw [mFilter registered, callbacks]
    exact registry.current registered
  · rw [mHandle] at registered here
    rw [callbacks] at member
    rw [mFilter registered]
    exact registry.filter registered callback member here

theorem pending_onShutdown (call : s.shutdowns[k]? = some old) (was : old.pending = none) (now : c.pending = none) :
    (pending (s.onShutdown k c)).Perm (pending s) := by
  have moved := Account.filterMap_set_perm (f := Shutdown.pending) (y := c) call
  rwa [was, now, Option.toList_none, List.append_nil, List.append_nil] at moved

theorem Stands.none_pending {i : Nat} (stands : Stands s e k i) :
    ∃ old, s.shutdowns[k]? = some old ∧ old.pending = none := by
  cases stands with
  | walk call => exact ⟨_, call, rfl⟩
  | relock call => exact ⟨_, call, rfl⟩

theorem Outcome.sameRegistration (h : Outcome s e s') (other : e.registration = false) (running : e ≠ .shutdown)
    (early : ∀ k, e ≠ .deregister k) : SameRegistration s s' := by
  cases h with
  | aside registration => simp [other] at registration
  | shutdown => exact absurd rfl running
  | deregister => exact absurd rfl (early _)
  | visit stands =>
    obtain ⟨_, call, was⟩ := stands.none_pending
    exact ⟨rfl, fun _ => rfl, rfl, rfl, rfl, pending_onShutdown call was rfl⟩
  | clear stands =>
    obtain ⟨_, call, was⟩ := stands.none_pending
    exact ⟨rfl, fun _ => rfl, rfl, rfl, rfl, pending_onShutdown (s := s.edit []) call was rfl⟩
  | post call => exact ⟨rfl, fun _ => rfl, rfl, rfl, rfl, pending_onShutdown (s := s.onFrame _ _) call rfl rfl⟩
  | _ => exact ⟨rfl, fun _ => rfl, rfl, rfl, rfl, .refl _⟩

theorem Registry.free (registry : Registry s) (free : s.mHandle = 0) :
    (pending s ++ s.deregistrations).Nodup ∧ (∀ h ∈ pending s ++ s.deregistrations, 0 < h ∧ h < s.nextHandle) ∧
      ∀ callback ∈ s.callbacks, callback.1 ∈ pending s := by
  obtain ⟨distinct, issued, _, callbacks, _, _⟩ := registry
  rw [held_of_eq free, List.nil_append] at distinct issued callbacks
  exact ⟨distinct, issued, callbacks⟩

theorem registry_listen (registry : Registry s) (free : s.mHandle = 0) :
    Registry { s with
      callbacks := s.callbacks ++ [(s.nextHandle, s.mFilter)], mHandle := s.nextHandle
      nextHandle := s.nextHandle + 1, returned := {} } := by
  obtain ⟨distinct, issued, leaving⟩ := registry.free free
  have positive := registry.next
  have holds : held { s with
      callbacks := s.callbacks ++ [(s.nextHandle, s.mFilter)], mHandle := s.nextHandle
      nextHandle := s.nextHandle + 1, returned := {} } = [s.nextHandle] := held_of_ne positive.ne'
  have fresh : s.nextHandle ∉ pending s ++ s.deregistrations := fun member => (issued _ member).2.false
  have apart : ∀ callback ∈ s.callbacks, callback.1 ≠ s.nextHandle := fun callback member same =>
    fresh (List.mem_append_left _ (same ▸ leaving callback member))
  refine ⟨?_, fun h member => ?_, Nat.succ_pos _, fun callback member => ?_, fun _ => by simp,
    fun _ callback member here => ?_⟩
  · rw [holds]
    exact List.nodup_cons.mpr ⟨fresh, distinct⟩
  · rw [holds] at member
    rcases List.mem_cons.mp member with rfl | old
    · exact ⟨positive, Nat.lt_succ_self _⟩
    · exact ⟨(issued h old).1, Nat.lt_succ_of_lt (issued h old).2⟩
  · rw [holds]
    rcases List.mem_append.mp member with old | new
    · exact List.mem_append_right _ (leaving callback old)
    · exact List.mem_append_left _ (List.mem_singleton.mp new ▸ List.mem_singleton_self _)
  · rcases List.mem_append.mp member with old | new
    · exact absurd here (apart callback old)
    · rw [List.mem_singleton.mp new]

theorem registry_shutdown (registry : Registry s) : Registry (shutdown s) := by
  by_cases free : s.mHandle = 0
  · have same : pending (shutdown s) = pending s := by simp [shutdown, pending, free, Shutdown.pending]
    refine registry.congr ⟨free.symm, fun _ => rfl, rfl, rfl, rfl, .of_eq same⟩
  · have moved : pending (shutdown s) = pending s ++ [s.mHandle] := by simp [shutdown, pending, free, Shutdown.pending]
    have places : (held (shutdown s) ++ (pending (shutdown s) ++ s.deregistrations)).Perm
        (held s ++ (pending s ++ s.deregistrations)) := by
      rw [held_of_ne free, moved, held_of_eq (by rfl), List.nil_append, List.append_assoc]
      exact List.perm_append_comm_assoc ..
    refine ⟨places.nodup_iff.mpr registry.distinct, fun h member => registry.issued h (places.mem_iff.mp member),
      registry.next, fun callback member => ?_, fun registered => absurd rfl registered,
      fun registered => absurd rfl registered⟩
    have before := registry.callbacks callback member
    rw [held_of_ne free] at before
    rw [moved, held_of_eq (by rfl), List.nil_append]
    exact (List.perm_append_comm ..).mem_iff.mp before

theorem registry_deregister (registry : Registry s) (call : s.shutdowns[k]? = some (.exchanged h)) :
    Registry ((deregisterCallback s h).onShutdown k .deregistered) := by
  have moved : (pending (s.onShutdown k .deregistered) ++ [h]).Perm (pending s) := by
    have exchanged := Account.filterMap_set_perm (f := Shutdown.pending) (y := .deregistered) call
    rwa [show Shutdown.deregistered.pending = none from rfl, Option.toList_none, List.append_nil] at exchanged
  have leaving : h ∈ pending s := mem_pending.mpr (List.mem_of_getElem? call)
  have places : (held s ++ (pending (s.onShutdown k .deregistered) ++ (s.deregistrations ++ [h]))).Perm
      (held s ++ (pending s ++ s.deregistrations)) := by
    apply List.Perm.append_left _
    rw [← List.append_assoc]
    apply (List.perm_append_comm ..).trans
    rw [← List.append_assoc]
    exact (List.perm_append_comm.trans moved).append_right _
  refine ⟨places.nodup_iff.mpr registry.distinct, fun g member => registry.issued g (places.mem_iff.mp member),
    registry.next, fun callback member => ?_, fun registered => ?_, fun registered callback member here => ?_⟩
  · obtain ⟨old, other⟩ := List.mem_filter.mp member
    rcases List.mem_append.mp (registry.callbacks callback old) with here | there
    · exact List.mem_append_left _ here
    · rcases List.mem_append.mp (moved.mem_iff.mpr there) with stays | same
      · exact List.mem_append_right _ stays
      · simp [List.mem_singleton.mp same] at other
  · have different : s.mHandle ≠ h := fun same => registry.not_pending registered (same ▸ leaving)
    exact List.mem_filter.mpr ⟨registry.current registered, bne_iff_ne.mpr different⟩
  · exact registry.filter registered callback (List.mem_filter.mp member).1 here

theorem registry_step (registry : Registry s) (h : machine.step s e = some s') :
    (Truthful s' → KeepsRegistration s e) ∧ (KeepsRegistration s e → Registry s') := by
  have next := (step_next h).1
  cases e with
  | bindEc triplet =>
    obtain rfl := Option.some.inj next
    refine ⟨fun truthful registered => ?_, fun same => registry.congr ⟨rfl, same, rfl, rfl, rfl, .refl _⟩⟩
    have unleaving : .exchanged s.mHandle ∉ s.shutdowns := fun call =>
      registry.not_pending registered (mem_pending.mpr call)
    exact (truthful.filter _ ⟨registry.current registered, unleaving⟩).symm
  | bind triplet =>
    obtain rfl := Option.some.inj next
    refine ⟨fun _ => trivial, fun _ => registry.congr ?_⟩
    unfold bind
    split
    case isTrue => exact ⟨rfl, fun _ => rfl, rfl, rfl, rfl, .refl _⟩
    case isFalse free => exact ⟨rfl, fun registered => absurd registered free, rfl, rfl, rfl, .refl _⟩
  | listen r =>
    obtain rfl := Option.some.inj next
    refine ⟨fun _ => trivial, fun _ => ?_⟩
    unfold listen
    split_ifs with registered failed
    · exact registry.congr ⟨rfl, fun _ => rfl, rfl, rfl, rfl, .refl _⟩
    · exact registry.congr ⟨rfl, fun _ => rfl, rfl, rfl, rfl, .refl _⟩
    · exact registry_listen registry (not_not.mp registered)
  | close =>
    obtain rfl := Option.some.inj next
    refine ⟨fun truthful => ?_, fun free => registry.congr ?_⟩
    · by_contra registered
      have registered : s.mHandle ≠ 0 := registered
      rw [close, if_neg registered] at truthful
      obtain ⟨callback, stays, unleaving⟩ := truthful.handle.mp registered
      obtain ⟨old, other⟩ := List.mem_filter.mp stays
      exact absurd (registry.registered ⟨old, unleaving⟩).2 (bne_iff_ne.mp other)
    · have free : s.mHandle = 0 := free
      rw [close, if_pos free]
      exact ⟨rfl, fun _ => rfl, rfl, rfl, rfl, .refl _⟩
  | shutdown =>
    obtain rfl := Option.some.inj next
    exact ⟨fun _ => trivial, fun _ => registry_shutdown registry⟩
  | deregister k =>
    cases next_outcome next with
    | deregister call => exact ⟨fun _ => trivial, fun _ => registry_deregister registry call⟩
    | aside registration => cases registration
    | visit stands | clear stands => cases stands
  | _ =>
    refine ⟨fun _ => trivial, fun _ => registry.congr ?_⟩
    exact (next_outcome next).sameRegistration rfl (by simp) (by simp)

theorem accepting_of_free (free : s.mHandle = 0) : Accepting s := by
  refine ⟨fun triplet => ?_, ?_⟩ <;> simp [bind, listen, free]

/-- In every state of a run the handle, the filter and the handles deregistered are truthful and the acceptor can be
opened again after it was closed, exactly when no `close` of the run is successful and no `bind` with an error
argument changes the filter of a registered callback. -/
theorem registration_truthful_iff (es : List Event) (s : State) (h : machine.run {} es = some s) :
    ((∀ fs u, fs <+: es → machine.run {} fs = some u → Truthful u) ∧ machine.Meets Reopens {} es) ↔
      machine.Meets KeepsRegistration {} es := by
  have along := Machine.forall_prefix_iff (m := machine) (fun registry => Registry.truthful registry)
    (fun registry step => registry_step registry step) registry_initial h
  rw [along]
  apply and_iff_left_of_imp
  intro keeps fs e u initial reached
  have condition := keeps fs e u initial reached
  cases e with
  | close => exact fun registered => absurd condition registered
  | shutdown => exact accepting_of_free rfl
  | _ => trivial

theorem registration_truthful_iff_shutdown :
    ∃ s, machine.run {} [.bindEc {}, .listen 0, .shutdown, .deregister 0, .bind {}, .listen 0] = some s ∧
      (∀ fs u, fs <+: [.bindEc {}, .listen 0, .shutdown, .deregister 0, .bind {}, .listen 0] →
        machine.run {} fs = some u → Truthful u) ∧
      machine.Meets Reopens {} [.bindEc {}, .listen 0, .shutdown, .deregister 0, .bind {}, .listen 0] :=
  ⟨_, rfl, (registration_truthful_iff _ _ rfl).mpr (by decide)⟩

/-- After `close` the handle is still there: a second `close` deregisters it again and `listen` is rejected. -/
theorem closed_handle_kept : ∃ s, machine.run {} [.listen 0, .close, .close, .listen 0] = some s ∧
    s.mHandle = 1 ∧ s.callbacks = [] ∧ s.deregistrations = [1, 1] ∧
    s.returned = makeErrorCode .operationInProgress ∧ ¬ Truthful s ∧
    ¬ machine.Meets Reopens {} [.listen 0, .close, .close, .listen 0] := by
  refine ⟨_, rfl, rfl, rfl, rfl, rfl, fun truthful => absurd truthful.once (by decide), fun reopens => ?_⟩
  have listens := (reopens [.listen 0] .close _ (by simp) rfl (by decide)).2.1
  exact absurd listens (by decide)

end CoUsb.Hotplug

import CoUsb.Hotplug.Outcomes

/-!
# Devices and accepts waiting for each other

Only one of the two lists of the acceptor is ever in use, and the accepts wait in the order
they were registered.
-/

namespace CoUsb.Hotplug

variable {s s' : State} {e : Event} {es : List Event} {a b : Nat} {acc : Accept}

/-- What an accept has at the places its coroutine can stand. -/
def Accept.Sound (acc : Accept) : Prop :=
  match acc.phase with
  | .absent | .started | .unready | .tested _ =>
    acc.registered = false ∧ acc.direct = false ∧ acc.posts = 0 ∧ acc.dev = none ∧ acc.ec = {} ∧ acc.result = none
  | .direct =>
    acc.registered = false ∧ acc.direct = true ∧ acc.posts = 0 ∧ acc.result = none ∧
      (acc.dev.isSome = true ∧ acc.ec = {} ∨ acc.dev = none ∧ acc.ec = makeErrorCode .operationCanceled)
  | .suspended => acc.registered = true ∧ acc.direct = false ∧ acc.result = none
  | .resumed | .finished =>
    acc.registered = !acc.direct ∧ acc.result.isSome = true ∧ (acc.direct = true → acc.posts = 0 ∧
      (acc.dev.isSome = true ∧ acc.ec = {} ∨ acc.dev = none ∧ acc.ec = makeErrorCode .operationCanceled))

namespace Accept

theorem sound_default : ({} : Accept).Sound := ⟨rfl, rfl, rfl, rfl, rfl, rfl⟩

theorem Sound.request (sound : acc.Sound) : acc.request.Sound := sound

theorem Sound.stop (sound : acc.Sound) : acc.stop.Sound := sound

theorem sound_begin : acc.begin.Sound := ⟨rfl, rfl, rfl, rfl, rfl, rfl⟩

/-- A coroutine that was suspended once was not continued directly. -/
theorem sound_registered (acc : Accept) (registered : acc.registered = true) : acc.Sound ↔
    acc.direct = false ∧ (acc.phase = .suspended ∧ acc.result = none ∨
      (acc.phase = .resumed ∨ acc.phase = .finished) ∧ acc.result.isSome = true) := by
  unfold Sound
  cases phase : acc.phase <;> cases direct : acc.direct <;> simp [registered]

theorem Sound.cancel (sound : acc.Sound) (registered : acc.registered = true) : acc.cancel.Sound :=
  (sound_registered acc.cancel registered).mpr ((sound_registered acc registered).mp sound)

theorem Sound.receive (sound : acc.Sound) (registered : acc.registered = true) (dev : Nat) : (acc.receive dev).Sound :=
  (sound_registered (acc.receive dev) registered).mpr ((sound_registered acc registered).mp sound)

theorem Sound.dismiss (sound : acc.Sound) (registered : acc.registered = true) : acc.dismiss.Sound :=
  (sound_registered acc.dismiss registered).mpr ((sound_registered acc registered).mp sound)

/-- Before the suspension. -/
def Early (acc : Accept) : Prop := acc.phase = .started ∨ acc.phase = .unready ∨ ∃ stop, acc.phase = .tested stop

theorem Sound.early (sound : acc.Sound) (early : acc.Early) :
    acc.registered = false ∧ acc.direct = false ∧ acc.posts = 0 ∧ acc.dev = none ∧ acc.ec = {} ∧ acc.result = none := by
  unfold Sound at sound
  rcases early with phase | phase | ⟨stop, phase⟩ <;> rwa [phase] at sound

theorem Sound.take (sound : acc.Sound) (early : acc.Early) (dev : Nat) : (acc.take dev).Sound := by
  obtain ⟨registered, _, posts, _, ec, result⟩ := sound.early early
  exact ⟨registered, rfl, posts, result, .inl ⟨rfl, ec⟩⟩

theorem Sound.refuse (sound : acc.Sound) (early : acc.Early) : acc.refuse.Sound := by
  obtain ⟨registered, _, posts, dev, _, result⟩ := sound.early early
  exact ⟨registered, rfl, posts, result, .inr ⟨dev, rfl⟩⟩

theorem Sound.register (sound : acc.Sound) (early : acc.Early) : acc.register.Sound := by
  obtain ⟨_, direct, _, _, _, result⟩ := sound.early early
  exact ⟨rfl, direct, result⟩

theorem Sound.move (sound : acc.Sound) (early : acc.Early) {phase : Phase} (later : (acc.move phase).Early) :
    (acc.move phase).Sound := by
  have kept := sound.early early
  unfold Sound
  rcases later with phase | phase | ⟨stop, phase⟩ <;> rw [phase] <;> exact kept

theorem Sound.resume (sound : acc.Sound) (ready : acc.phase = .direct ∨ acc.phase = .suspended) : acc.resume.Sound := by
  unfold Sound at sound
  rcases ready with phase | phase
  · rw [phase] at sound
    obtain ⟨registered, direct, posts, _, outcome⟩ := sound
    refine ⟨?_, rfl, fun _ => ⟨posts, outcome⟩⟩
    show acc.registered = !acc.direct
    rw [registered, direct]
    rfl
  · rw [phase] at sound
    obtain ⟨registered, direct, _⟩ := sound
    refine ⟨?_, rfl, fun now => absurd (direct.symm.trans now) (by simp)⟩
    show acc.registered = !acc.direct
    rw [registered, direct]
    rfl

theorem Sound.finish (sound : acc.Sound) (resumed : acc.phase = .resumed) : (acc.move .finished).Sound := by
  unfold Sound at sound
  rw [resumed] at sound
  exact sound

end Accept

/-- What one section does to one accept. -/
inductive Accept.Change (acc : Accept) : Accept → Prop where
  | none : Change acc acc
  | begin (absent : acc.phase = .absent) : Change acc acc.begin
  | request : Change acc acc.request
  | stop (unregistered : acc.registered = false) : Change acc acc.stop
  | cancel (registered : acc.registered = true) : Change acc acc.cancel
  | take (early : acc.Early) {dev : Nat} : Change acc (acc.take dev)
  | move {phase : Phase} (early : acc.Early) (later : (acc.move phase).Early) : Change acc (acc.move phase)
  | refuse (early : acc.Early) : Change acc acc.refuse
  | register (early : acc.Early) : Change acc acc.register
  | resume (ready : acc.phase = .direct ∨ acc.phase = .suspended) : Change acc acc.resume
  | finish (resumed : acc.phase = .resumed) : Change acc (acc.move .finished)
  | receive (registered : acc.registered = true) {dev : Nat} : Change acc (acc.receive dev)
  | dismiss (registered : acc.registered = true) : Change acc acc.dismiss

theorem Accept.Change.sound {new : Accept} (change : acc.Change new) (sound : acc.Sound) : new.Sound := by
  cases change with
  | none => exact sound
  | begin => exact sound_begin
  | request => exact sound.request
  | stop => exact sound.stop
  | cancel registered => exact sound.cancel registered
  | take early => exact sound.take early _
  | move early later => exact sound.move early later
  | refuse early => exact sound.refuse early
  | register early => exact sound.register early
  | resume ready => exact sound.resume ready
  | finish resumed => exact sound.finish resumed
  | receive registered => exact sound.receive registered _
  | dismiss registered => exact sound.dismiss registered

theorem Accept.Change.registered {new : Accept} (change : acc.Change new) (sound : acc.Sound)
    (registered : acc.registered = true) : new.registered = true := by
  cases change with
  | begin absent =>
    unfold Sound at sound
    rw [absent] at sound
    exact absurd (registered.symm.trans sound.1) (by simp)
  | register => rfl
  | _ => exact registered

/-- Whoever waits, or is about to be posted by `shutdown`, has been registered. -/
structure Sound (s : State) : Prop where
  accepts : ∀ a, (s.accepts a).Sound
  waiting : ∀ a ∈ s.mResumptions, (s.accepts a).registered = true
  calls : ∀ i res edits, .unlocked i res edits ∈ s.shutdowns → (s.accepts res).registered = true

theorem change_onAccept {f : Accept → Accept} (here : (s.accepts a).Change (f (s.accepts a))) (b : Nat) :
    (s.accepts b).Change ((s.onAccept a f).accepts b) := by
  rw [State.onAccept_accepts]
  split
  case isTrue same => exact same ▸ here
  case isFalse => exact .none

theorem Outcome.change (h : Outcome s e s') (sound : Sound s) (b : Nat) : (s.accepts b).Change (s'.accepts b) := by
  cases h with
  | accept absent => exact change_onAccept (.begin absent) b
  | requestStop => exact change_onAccept .request b
  | stopEarly _ unregistered => exact change_onAccept (.stop unregistered) b
  | stopWaiting _ registered | stopLate _ registered => exact change_onAccept (.cancel registered) b
  | readyTake started => exact change_onAccept (.take (.inl started)) b
  | unready started => exact change_onAccept (.move (.inl started) (.inr (.inl rfl))) b
  | stopTest unready => exact change_onAccept (.move (.inr (.inl unready)) (.inr (.inr ⟨_, rfl⟩))) b
  | refused tested => exact change_onAccept (.refuse (.inr (.inr ⟨_, tested⟩))) b
  | suspendTake tested => exact change_onAccept (.take (.inr (.inr ⟨_, tested⟩))) b
  | register tested => exact change_onAccept (.register (.inr (.inr ⟨_, tested⟩))) b
  | resume ready => exact change_onAccept (.resume (ready.imp_right And.left)) b
  | finish resumed => exact change_onAccept (.finish resumed) b
  | hand first => exact change_onAccept (.receive (sound.waiting _ (by simp [first]))) b
  | post call => exact change_onAccept (.dismiss (sound.calls _ _ _ (List.mem_of_getElem? call))) b
  | aside _ aside => exact aside.accepts ▸ .none
  | store | left | shutdown | deregister | visit | clear | invalid => exact .none

/-! ### The lists -/

/-- A section takes accepts out of `m_resumptions`, or appends the one it registers. -/
theorem Outcome.waiting (h : Outcome s e s') :
    s'.mResumptions.Sublist s.mResumptions ∧ s'.queued = s.queued ∨
    ∃ a, (s.accepts a).phase = .tested false ∧ s.mArrivedDevices = [] ∧ (s'.accepts a).registered = true ∧
      s'.mResumptions = s.mResumptions ++ [a] ∧ s'.queued = s.queued ++ [a] := by
  cases h with
  | stopWaiting => exact .inl ⟨List.erase_sublist, rfl⟩
  | register tested none => exact .inr ⟨_, tested, none, by simp [Accept.register], rfl, rfl⟩
  | hand first => exact .inl ⟨by rw [first]; exact List.sublist_cons_self _ _, rfl⟩
  | clear => exact .inl ⟨List.nil_sublist _, rfl⟩
  | aside _ aside => exact .inl ⟨aside.mResumptions ▸ .refl _, aside.queued⟩
  | _ => exact .inl ⟨.refl _, rfl⟩

theorem Outcome.registers (h : Outcome s e s') (now : (s'.accepts b).registered = true) :
    (s.accepts b).registered = true ∨ b ∈ s'.mResumptions ∧ e = .awaitSuspend b ∧
      (s.accepts b).phase = .tested false ∧ s.mArrivedDevices = [] := by
  have kept : ∀ {a f}, ((f (s.accepts a)).registered = true → (s.accepts a).registered = true) →
      ((s.onAccept a f).accepts b).registered = true → (s.accepts b).registered = true := by
    intro a f local' now
    rw [State.onAccept_accepts] at now
    split at now
    case isTrue same => exact same ▸ local' now
    case isFalse => exact now
  cases h with
  | accept => exact .inl (kept (fun now => by cases now) now)
  | @register a tested none =>
    by_cases same : b = a
    · subst same
      exact .inr ⟨by simp, rfl, tested, none⟩
    · have now : ((s.onAccept a _).accepts b).registered = true := now
      rw [State.onAccept_other same] at now
      exact .inl now
  | aside _ aside => exact .inl (aside.accepts ▸ now)
  | store | left | shutdown | deregister | visit | clear | invalid => exact .inl now
  | _ => exact .inl (kept (fun now => now) now)

theorem Outcome.calls (h : Outcome s e s') {i res edits : Nat} (call : .unlocked i res edits ∈ s'.shutdowns) :
    .unlocked i res edits ∈ s.shutdowns ∨ res ∈ s.mResumptions := by
  cases h with
  | shutdown =>
    rcases List.mem_append.mp call with old | new
    · exact .inl old
    · rw [List.mem_singleton] at new
      split at new <;> cases new
  | deregister | clear | post =>
    rcases List.mem_or_eq_of_mem_set call with old | new
    · exact .inl old
    · cases new
  | visit _ here =>
    rcases List.mem_or_eq_of_mem_set call with old | new
    · exact .inl old
    · obtain ⟨rfl, rfl, rfl⟩ := Shutdown.unlocked.inj new
      exact .inr (List.mem_of_getElem? here)
  | aside _ aside => exact .inl (aside.shutdowns ▸ call)
  | _ => exact .inl call

theorem sound_step (sound : Sound s) (h : Outcome s e s') : Sound s' := by
  have registered : ∀ b, (s.accepts b).registered = true → (s'.accepts b).registered = true :=
    fun b => (h.change sound b).registered (sound.accepts b)
  refine ⟨fun b => (h.change sound b).sound (sound.accepts b), fun b member => ?_, fun i res edits call => ?_⟩
  · rcases h.waiting with ⟨fewer, _⟩ | ⟨a, _, _, new, more, _⟩
    · exact registered b (sound.waiting b (fewer.subset member))
    · rw [more, List.mem_append, List.mem_singleton] at member
      rcases member with old | rfl
      · exact registered b (sound.waiting b old)
      · exact new
  · rcases h.calls call with old | waiting
    · exact registered res (sound.calls _ _ _ old)
    · exact registered res (sound.waiting _ waiting)

theorem sound_initial : Sound {} := ⟨fun _ => Accept.sound_default, by simp, by simp⟩

theorem sound_run (h : machine.run {} es = some s) : Sound s :=
  Machine.run_invariant (I := Sound) (fun sound step => sound_step sound (step_outcome step).1) sound_initial h

/-! ### No accept waits while a device is queued -/

/-- The accepts wait in the order of their registration, and only while no device is queued. -/
structure Ordered (s : State) : Prop where
  empty : s.mResumptions = [] ∨ s.mArrivedDevices = []
  order : s.mResumptions.Sublist s.queued
  distinct : s.queued.Nodup
  queued : ∀ a ∈ s.queued, (s.accepts a).registered = true

/-- A device is queued only by an arrival that finds nobody waiting. -/
theorem Outcome.devices (h : Outcome s e s') :
    s'.mArrivedDevices.Sublist s.mArrivedDevices ∨ s.mResumptions = [] ∧ s'.mResumptions = [] := by
  cases h with
  | readyTake _ last | suspendTake _ last => exact .inl (last ▸ List.sublist_append_left _ _)
  | store none => exact .inr ⟨none, none⟩
  | left => exact .inl List.eraseP_sublist
  | clear => exact .inl (List.nil_sublist _)
  | aside _ aside => exact .inl (aside.mArrivedDevices ▸ .refl _)
  | _ => exact .inl (.refl _)

theorem ordered_step (sound : Sound s) (ordered : Ordered s) (h : Outcome s e s') : Ordered s' := by
  obtain ⟨empty, order, distinct, queued⟩ := ordered
  have registered : ∀ b ∈ s.queued, (s'.accepts b).registered = true :=
    fun b member => (h.change sound b).registered (sound.accepts b) (queued b member)
  have gone : s.mArrivedDevices = [] → s'.mArrivedDevices = [] ∨ s'.mResumptions = [] := by
    intro none
    rcases h.devices with fewer | ⟨_, none⟩
    · exact .inl (List.sublist_nil.mp (none ▸ fewer))
    · exact .inr none
  rcases h.waiting with ⟨fewer, same⟩ | ⟨a, tested, none, new, more, appended⟩
  · refine ⟨?_, same ▸ fewer.trans order, same ▸ distinct, same ▸ registered⟩
    rcases empty with none | none
    · exact .inl (List.sublist_nil.mp (none ▸ fewer))
    · exact (gone none).symm
  · refine ⟨(gone none).symm, ?_, ?_, ?_⟩
    · rw [more, appended]
      exact order.append (.refl _)
    · have unregistered := ((sound.accepts a).early (.inr (.inr ⟨_, tested⟩))).1
      have fresh : a ∉ s.queued := fun member => absurd (unregistered.symm.trans (queued a member)) (by simp)
      rw [appended]
      exact List.nodup_append_comm.mp (List.nodup_cons.mpr ⟨fresh, distinct⟩)
    · intro b member
      rw [appended, List.mem_append, List.mem_singleton] at member
      rcases member with old | rfl
      · exact registered b old
      · exact new

theorem ordered_initial : Ordered {} := ⟨.inl rfl, .refl _, List.nodup_nil, by simp⟩

theorem ordered_run (h : machine.run {} es = some s) : Ordered s := by
  refine (Machine.run_invariant (I := fun s => Sound s ∧ Ordered s) ?_ ⟨sound_initial, ordered_initial⟩ h).2
  rintro s e s' ⟨sound, ordered⟩ step
  have outcome := (step_outcome step).1
  exact ⟨sound_step sound outcome, ordered_step sound ordered outcome⟩

theorem pairwise_idxOf {l : List Nat} (distinct : l.Nodup) : l.Pairwise fun a b => l.idxOf a < l.idxOf b := by
  apply List.pairwise_iff_getElem.mpr
  intro i j hi hj lt
  rwa [distinct.idxOf_getElem, distinct.idxOf_getElem]

theorem Ordered.longest {rest : List Nat} (ordered : Ordered s) (first : s.mResumptions = a :: rest) :
    ∀ b ∈ s.mResumptions, s.queued.idxOf a ≤ s.queued.idxOf b := by
  have order := (pairwise_idxOf ordered.distinct).sublist ordered.order
  rw [first] at order ⊢
  intro b member
  rcases List.mem_cons.mp member with rfl | later
  · exact le_rfl
  · exact (List.rel_of_pairwise_cons order later).le

/-- In every reachable state accepts wait or devices are queued, never both, and a device that arrives while
accepts wait is given to the one that was registered first and is not queued. -/
theorem first_come_first_served (h : machine.run {} es = some s) :
    (s.mResumptions = [] ∨ s.mArrivedDevices = []) ∧
    ∀ desc s', machine.step s (.arrived desc) = some s' → s.mResumptions ≠ [] →
      ∃ a ∈ s.mResumptions, (∀ b ∈ s.mResumptions, s.queued.idxOf a ≤ s.queued.idxOf b) ∧
        (s'.accepts a).dev = some s.devices.length ∧ (s'.accepts a).posts = (s.accepts a).posts + 1 ∧
        s'.mResumptions = s.mResumptions.erase a ∧ s'.mArrivedDevices = [] := by
  have ordered := ordered_run h
  refine ⟨ordered.empty, fun desc s' step waiting => ?_⟩
  obtain rfl := Option.some.inj (step_next step).1
  obtain ⟨a, rest, first⟩ := List.exists_cons_of_ne_nil waiting
  have empty : s.mArrivedDevices = [] := ordered.empty.resolve_left waiting
  refine ⟨a, by simp [first], ordered.longest first, ?_⟩
  unfold arrived
  simp [first, empty, Accept.post]

/-- Accept `a` is called and registers. -/
def waits (a : Nat) : List Event := [.accept a, .awaitReady a, .stopTest a, .awaitSuspend a]

theorem first_come_first_served_two : ∃ s s', machine.run {} (waits 0 ++ waits 1) = some s ∧
    machine.step s (.arrived ⟨1, 2, 0⟩) = some s' ∧ s.mResumptions = [0, 1] ∧
    ∃ a ∈ s.mResumptions, (∀ b ∈ s.mResumptions, s.queued.idxOf a ≤ s.queued.idxOf b) ∧
      (s'.accepts a).dev = some s.devices.length ∧ (s'.accepts a).posts = (s.accepts a).posts + 1 ∧
      s'.mResumptions = s.mResumptions.erase a ∧ s'.mArrivedDevices = [] := by
  have waiting : ∃ s, machine.run {} (waits 0 ++ waits 1) = some s ∧ s.mResumptions = [0, 1] ∧ s.undefined = false :=
    ⟨_, rfl, rfl, rfl⟩
  obtain ⟨s, h, both, defined⟩ := waiting
  have step : machine.step s (.arrived ⟨1, 2, 0⟩) = some (arrived s ⟨1, 2, 0⟩) := by
    show (if s.undefined then none else _) = _
    rw [defined]
    rfl
  exact ⟨s, _, h, step, both, (first_come_first_served h).2 _ _ step (by simp [both])⟩

end CoUsb.Hotplug

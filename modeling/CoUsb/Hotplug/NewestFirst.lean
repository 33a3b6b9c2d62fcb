import CoUsb.Hotplug.Departures

/-!
# The order in which queued devices are accepted

`accept` takes the device that arrived last. The queue is a stack: a device is handed out only when all that arrived
after it are out of the queue.
-/

namespace CoUsb.Hotplug

variable {s s' t : State} {e : Event} {es fs : List Event} {a b d : Nat}

/-- The queued devices. -/
def State.waitingDevices (s : State) : List Nat := s.mArrivedDevices.map DevInfo.dev

/-- The devices stand in the queue as they arrived, and what an accept was given is not among them. -/
structure Stacked (s : State) : Prop where
  sorted : s.waitingDevices.Pairwise (· < ·)
  known : ∀ d ∈ s.waitingDevices, d < s.devices.length
  given : ∀ a d, (s.accepts a).dev = some d → d < s.devices.length ∧ d ∉ s.waitingDevices

/-! ### What a step does to the queue -/

/-- A step leaves devices out, or adds the one that arrives. -/
inductive Restacks (s s' : State) : Prop where
  | fewer (devices : s'.devices.length = s.devices.length) (sublist : s'.waitingDevices.Sublist s.waitingDevices)
  | past (devices : s'.devices.length = s.devices.length + 1) (same : s'.waitingDevices = s.waitingDevices)
  | more (devices : s'.devices.length = s.devices.length + 1)
      (pushed : s'.waitingDevices = s.waitingDevices ++ [s.devices.length])

theorem Outcome.restacks (h : Outcome s e s') : Restacks s s' := by
  have popped : ∀ {devices : List DevInfo} {info : DevInfo}, s.mArrivedDevices = devices ++ [info] →
      (devices.map DevInfo.dev).Sublist s.waitingDevices := by
    intro devices info last
    rw [State.waitingDevices, last]
    exact (List.sublist_append_left ..).map _
  cases h with
  | readyTake _ last | suspendTake _ last => exact .fewer rfl (popped last)
  | store => exact .more (by simp) (by simp [State.waitingDevices])
  | hand => exact .past (by simp) rfl
  | left => exact .fewer rfl (List.eraseP_sublist.map _)
  | clear => exact .fewer rfl (List.nil_sublist _)
  | aside _ aside => exact .fewer (congrArg _ aside.devices) (by rw [State.waitingDevices, aside.mArrivedDevices]; rfl)
  | _ => exact .fewer rfl (.refl _)

/-- How an accept comes by its device. -/
inductive Gets (s s' : State) (b d : Nat) : Prop where
  | had (before : (s.accepts b).dev = some d)
  | takes (last : s.waitingDevices = s'.waitingDevices ++ [d]) (devices : s'.devices = s.devices)
  | receives (next : d = s.devices.length) (devices : s'.devices.length = s.devices.length + 1)
      (same : s'.waitingDevices = s.waitingDevices)

theorem Outcome.gets (h : Outcome s e s') (now : (s'.accepts b).dev = some d) : Gets s s' b d := by
  have kept : ∀ {a : Nat} {f : Accept → Accept}, (f (s.accepts a)).dev = (s.accepts a).dev →
      ((s.onAccept a f).accepts b).dev = some d → (s.accepts b).dev = some d := by
    intro a f same now
    by_cases here : b = a
    · rw [here, State.onAccept_same, same] at now
      rwa [here]
    · rwa [State.onAccept_other here] at now
  have took : ∀ {a : Nat} {info : DevInfo} {devices : List DevInfo}, s.mArrivedDevices = devices ++ [info] →
      ((s.onAccept a (Accept.take info.dev)).accepts b).dev = some d →
      Gets s { s.onAccept a (Accept.take info.dev) with mArrivedDevices := devices } b d := by
    intro a info devices last now
    by_cases here : b = a
    · rw [here, State.onAccept_same] at now
      obtain rfl : info.dev = d := Option.some.inj now
      exact .takes (by simp [State.waitingDevices, last]) rfl
    · rw [State.onAccept_other here] at now
      exact .had now
  cases h with
  | @accept a =>
    by_cases here : b = a
    · rw [here, State.onAccept_same] at now
      cases now
    · rw [State.onAccept_other here] at now
      exact .had now
  | readyTake _ last | suspendTake _ last => exact took last now
  | @hand a desc rest =>
    by_cases here : b = a
    · simp only [here, State.edit_accepts, State.onFrame_accepts, State.onAccept_same] at now
      exact .receives (Option.some.inj now).symm (by simp) rfl
    · simp only [State.edit_accepts, State.onFrame_accepts, State.onAccept_other here] at now
      exact .had now
  | aside _ aside => exact .had (aside.accepts ▸ now)
  | requestStop | stopEarly | stopWaiting | stopLate | unready | stopTest | refused | register | resume | finish =>
    exact .had (kept rfl now)
  | post => exact .had (kept rfl now)
  | store | left | shutdown | deregister | visit | clear | invalid => exact .had now

theorem stacked_step (stacked : Stacked s) (h : Outcome s e s') : Stacked s' := by
  obtain ⟨sorted, known, given⟩ := stacked
  have restacks := h.restacks
  refine ⟨?_, ?_, fun b d now => ?_⟩
  · cases restacks with
    | fewer _ sublist => exact sorted.sublist sublist
    | past _ same => rwa [same]
    | more _ pushed =>
      rw [pushed, List.pairwise_append]
      exact ⟨sorted, List.pairwise_singleton .., fun d member _ last => List.mem_singleton.mp last ▸ known d member⟩
  · cases restacks with
    | fewer devices sublist => exact fun d member => devices ▸ known d (sublist.subset member)
    | past devices same => exact fun d member => devices ▸ (known d (same ▸ member)).trans (Nat.lt_succ_self _)
    | more devices pushed =>
      intro d member
      rw [pushed, List.mem_append, List.mem_singleton] at member
      rw [devices]
      rcases member with old | rfl
      · exact (known d old).trans (Nat.lt_succ_self _)
      · exact Nat.lt_succ_self _
  · cases h.gets now with
    | had before =>
      obtain ⟨arrived, out⟩ := given b d before
      cases restacks with
      | fewer devices sublist => exact ⟨devices ▸ arrived, fun inside => out (sublist.subset inside)⟩
      | past devices same => exact ⟨devices ▸ arrived.trans (Nat.lt_succ_self _), same ▸ out⟩
      | more devices pushed =>
        refine ⟨devices ▸ arrived.trans (Nat.lt_succ_self _), ?_⟩
        rw [pushed, List.mem_append, List.mem_singleton]
        exact not_or.mpr ⟨out, arrived.ne⟩
    | takes last devices =>
      rw [last, List.pairwise_append] at sorted
      refine ⟨devices ▸ known d (last ▸ List.mem_append_right _ (List.mem_singleton_self _)), fun inside => ?_⟩
      exact lt_irrefl d (sorted.2.2 d inside d (List.mem_singleton_self _))
    | receives next devices same =>
      subst next
      refine ⟨devices ▸ Nat.lt_succ_self _, fun inside => ?_⟩
      exact lt_irrefl _ (known _ (same ▸ inside))

theorem stacked_initial : Stacked {} := ⟨.nil, by simp [State.waitingDevices], by simp⟩

theorem stacked_run (h : machine.run {} es = some s) : Stacked s :=
  Machine.run_invariant (fun stacked step => stacked_step stacked (step_outcome step).1) stacked_initial h

/-! ### Newest first -/

/-- While the newer device is queued, the older one is not given to anybody. -/
def Behind (older newer : Nat) (s : State) : Prop :=
  newer ∈ s.waitingDevices → ∀ a, (s.accepts a).dev ≠ some older

theorem behind_step {older newer : Nat} (stacked : Stacked s) (lt : older < newer) (arrived : newer < s.devices.length)
    (behind : Behind older newer s) (h : Outcome s e s') : Behind older newer s' := by
  intro inside a now
  have before : newer ∈ s.waitingDevices := by
    cases h.restacks with
    | fewer _ sublist => exact sublist.subset inside
    | past _ same => exact same ▸ inside
    | more _ pushed =>
      rw [pushed, List.mem_append, List.mem_singleton] at inside
      exact inside.resolve_right arrived.ne
  cases h.gets now with
  | had same => exact behind before a same
  | takes last =>
    have sorted := stacked.sorted
    rw [last, List.pairwise_append] at sorted
    exact lt_asymm lt (sorted.2.2 newer inside older (List.mem_singleton_self _))
  | receives next => omega

/-- In every reachable state the queue is in the order of arrival, and of two queued devices the older one is given to
an accept only when the newer one has been taken, has left or was dropped by `shutdown`. -/
theorem newest_first (h : machine.run {} es = some s) :
    s.waitingDevices.Pairwise (· < ·) ∧
    ∀ older ∈ s.waitingDevices, ∀ newer ∈ s.waitingDevices, older < newer →
      ∀ fs t, machine.run s fs = some t → ∀ a, (t.accepts a).dev = some older → newer ∉ t.waitingDevices := by
  have stacked := stacked_run h
  refine ⟨stacked.sorted, fun older waits newer waits' lt fs t run a given inside => ?_⟩
  have kept : Stacked t ∧ newer < t.devices.length ∧ Behind older newer t := by
    refine Machine.run_invariant (I := fun s => Stacked s ∧ newer < s.devices.length ∧ Behind older newer s) ?_
      ⟨stacked, stacked.known newer waits', fun _ b held => (stacked.given b older held).2 waits⟩ run
    rintro s e s' ⟨stacked, arrived, behind⟩ step
    have h := (step_outcome step).1
    exact ⟨stacked_step stacked h, arrived.trans_le h.queue.1, behind_step stacked lt arrived behind h⟩
  exact kept.2.2 inside a given

/-- Two keyboards are queued; the accept takes the second. -/
theorem newest_first_two : ∃ s t, machine.run {} [.arrived keyboard, .arrived keyboard] = some s ∧
    machine.run s [.accept 0, .awaitReady 0, .accept 1, .awaitReady 1] = some t ∧ 1 ∉ t.waitingDevices := by
  have run : ∃ s, machine.run {} [.arrived keyboard, .arrived keyboard] = some s := ⟨_, rfl⟩
  obtain ⟨s, run⟩ := run
  obtain rfl := Option.some.inj run
  exact ⟨_, _, run, rfl, (newest_first run).2 0 (by decide) 1 (by decide) (by decide)
    [.accept 0, .awaitReady 0, .accept 1, .awaitReady 1] _ rfl 1 rfl⟩

/-- A device arrives, and the accept `a` takes it. -/
def servesNewest (a : Nat) (desc : DeviceDescriptor) : List Event :=
  [.arrived desc, .accept a, .awaitReady a, .awaitResume a]

theorem servesNewest_run (desc : DeviceDescriptor) (idle : s.mResumptions = []) (defined : s.undefined = false)
    (fresh : s.accepts a = {}) : ∃ t, machine.run s (servesNewest a desc) = some t ∧
      t.devices = s.devices ++ [desc] ∧ t.gone = s.gone ∧ t.mResumptions = [] ∧ t.undefined = false ∧
      t.waitingDevices = s.waitingDevices ∧
      (t.accepts a).result = some ({}, some s.devices.length) ∧ ∀ b, b ≠ a → t.accepts b = s.accepts b := by
  let stored : State := { s with
    devices := s.devices ++ [desc]
    mArrivedDevices := s.mArrivedDevices ++ [⟨tripletFromDescriptor desc, s.devices.length⟩] }
  let begun := stored.onAccept a .begin
  let taken : State := { begun.onAccept a (Accept.take s.devices.length) with mArrivedDevices := s.mArrivedDevices }
  have arrives : machine.step s (.arrived desc) = some stored := by
    simp [machine, step, next, defined, arrived, idle, stored]
  have begins : machine.step stored (.accept a) = some begun := by
    simp [machine, step, next, defined, accept, fresh, stored, begun, State.onAccept, Accept.begin]
  have takes : machine.step begun (.awaitReady a) = some taken := by
    simp [machine, step, next, defined, awaitReady, takeDevice, fresh, stored, begun, taken, Accept.begin, Accept.take,
      State.onAccept]
  have resumes : machine.step taken (.awaitResume a) = some (taken.onAccept a .resume) := by
    simp [machine, step, next, defined, awaitResume, stored, begun, taken, Accept.take, State.onAccept, Accept.resume]
  refine ⟨taken.onAccept a .resume, ?_, rfl, rfl, idle, defined, rfl, ?_, fun b other => ?_⟩
  · exact Machine.run_cons.mpr ⟨_, arrives, Machine.run_cons.mpr ⟨_, begins, Machine.run_cons.mpr ⟨_, takes,
      Machine.run_cons.mpr ⟨_, resumes, rfl⟩⟩⟩⟩
  · simp [taken, begun, stored, fresh, State.onAccept, Accept.begin, Accept.take, Accept.resume]
  · simp [taken, begun, stored, State.onAccept, Function.update_of_ne other]

/-- The devices `later` were all accepted as they came, past the first one. -/
structure PassedOver (first : DeviceDescriptor) (later : List DeviceDescriptor) (s : State) : Prop where
  devices : s.devices = first :: later
  gone : s.gone = []
  waiting : s.waitingDevices = [0]
  results : ∀ a < later.length, (s.accepts a).result = some ({}, some (a + 1))
  idle : s.mResumptions = []
  defined : s.undefined = false
  fresh : ∀ a, later.length ≤ a → s.accepts a = {}

theorem PassedOver.serves {first desc : DeviceDescriptor} {later : List DeviceDescriptor}
    (passed : PassedOver first later s) : ∃ t, machine.run s (servesNewest later.length desc) = some t ∧
      PassedOver first (later ++ [desc]) t := by
  obtain ⟨t, run, devices, gone, idle, defined, waiting, result, others⟩ :=
    servesNewest_run desc passed.idle passed.defined (passed.fresh later.length le_rfl)
  refine ⟨t, run, ⟨?_, gone.trans passed.gone, waiting.trans passed.waiting, fun a bound => ?_, idle, defined,
    fun a bound => ?_⟩⟩
  · rw [devices, passed.devices, List.cons_append]
  · rw [List.length_append, List.length_singleton] at bound
    by_cases last : a = later.length
    · rw [last, result, passed.devices, List.length_cons]
    · rw [others a last]
      exact passed.results a (by omega)
  · rw [List.length_append, List.length_singleton] at bound
    rw [others a (by omega)]
    exact passed.fresh a (by omega)

/-- However many devices arrive later at a listening acceptor, each can be accepted at once while the first one,
which never leaves, waits. -/
theorem oldest_starves (first : DeviceDescriptor) (later : List DeviceDescriptor) :
    ∃ es s, machine.run {} (.listen 0 :: es) = some s ∧ s.devices = first :: later ∧ 0 ∉ s.gone ∧
      s.waitingDevices = [0] ∧ ∀ a < later.length, (s.accepts a).result = some ({}, some (a + 1)) := by
  have served : ∃ es s, machine.run {} (.listen 0 :: es) = some s ∧ PassedOver first later s := by
    induction later using List.reverseRecOn with
    | nil => exact ⟨[.arrived first], _, rfl, rfl, rfl, rfl, by simp, rfl, rfl, fun _ _ => rfl⟩
    | append_singleton later desc ih =>
      obtain ⟨es, s, run, passed⟩ := ih
      obtain ⟨t, round, passed⟩ := passed.serves
      exact ⟨es ++ servesNewest later.length desc, t, Machine.run_append_some.mpr ⟨s, run, round⟩, passed⟩
  obtain ⟨es, s, run, passed⟩ := served
  exact ⟨es, s, run, passed.devices, by simp [passed.gone], passed.waiting, passed.results⟩

end CoUsb.Hotplug

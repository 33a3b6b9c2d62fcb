import CoUsb.Hotplug.Waiting
import CoUsb.Wrapper.DeviceRefRuns

/-!
# The references of an acceptor

The acceptor together with the `device_ref`s it constructs, copies, assigns and destroys: those in
`m_arrived_devices`, one in the `op_res` of each accept, and the temporary ones of the hotplug callback. What an accept
returns is the caller's.
-/

namespace CoUsb.Hotplug.Referenced

structure State where
  acceptor : Hotplug.State := {}
  refs : DeviceRef.State := {}
  /-- The reference in the `op_res` of an accept, by its number. -/
  opRes : Nat → Option Nat := fun _ => none
  /-- The references in the frames of accepts. -/
  frames : List Nat := []

inductive Event where
  /-- A step of the acceptor; `reallocates` tells whether `emplace_back` does. -/
  | acceptor (e : Hotplug.Event) (reallocates : Bool)
  /-- An operation of the caller on references of its own. -/
  | caller (e : DeviceRef.Event)
  deriving DecidableEq, Repr

/-! ### What the sections do to references -/

/-- The element a device that leaves is compared to. -/
def departing (s : Hotplug.State) (dev : Nat) : Option Nat := do
  let desc ← s.devices[dev]?
  s.mArrivedDevices.findIdx? fun info => wildcardTripletComparator info.triplet (tripletFromDescriptor desc)

/-- `op_res->dev_ref = m_arrived_devices.back().dev_ref` and `pop_back`, when there is a device. -/
def take (s : State) (a : Nat) : Option (List DeviceRef.Event) :=
  if s.acceptor.mArrivedDevices = [] then some []
  else do
    let i ← s.opRes a
    some [.assignElement i (s.acceptor.mArrivedDevices.length - 1), .popBack]

/-- The loop of `shutdown` clears the list behind the last element. -/
def clear (s : Hotplug.State) (i : Nat) : List DeviceRef.Event := if s.mResumptions[i]? = none then [.clear] else []

def operations (s : State) (reallocates : Bool) : Hotplug.Event → Option (List DeviceRef.Event)
  | .accept _ => some [.construct]
  | .awaitReady a => take s a
  | .awaitSuspend a => if (s.acceptor.accepts a).phase = .tested false then take s a else some []
  | .awaitResume a =>
    if (s.acceptor.accepts a).ec.isError then some [.construct]
    else do
      let i ← s.opRes a
      some [.copy i]
  | .finish a => do
    let i ← s.opRes a
    some [.destroy i]
  | .arrived _ =>
    let dev := s.acceptor.devices.length
    let devRef := s.refs.refs.length
    match s.acceptor.mResumptions with
    | [] => some [.fromDevice dev, .emplaceBack dev reallocates, .destroy devRef]
    | r :: _ => do
      let i ← s.opRes r
      some [.fromDevice dev, .fromDevice dev, .assign i (devRef + 1), .destroy (devRef + 1), .destroy devRef]
  | .left dev => some (.fromDevice dev :: (departing s.acceptor dev).toList.map .erase ++ [.destroy s.refs.refs.length])
  | .walk _ => some (clear s.acceptor 0)
  | .relock k =>
    match s.acceptor.shutdowns[k]? with
    | some (.posted i edits) => some (if edits = s.acceptor.edits then clear s.acceptor (i + 1) else [])
    | _ => some []
  | .post k =>
    match s.acceptor.shutdowns[k]? with
    | some (.unlocked _ res _) => do
      -- `op_res->ec` is there as long as `op_res->dev_ref` is
      let i ← s.opRes res
      let _ ← s.refs.live i
      some []
    | _ => some []
  | .requestStop _ | .stopFn _ | .stopTest _ | .bindEc _ | .bind _ | .listen _ | .close | .shutdown | .deregister _ =>
    some []

/-- The caller knows the references it made and those it was given. -/
def callers (s : State) : DeviceRef.Event → Bool
  | .construct | .fromDevice _ => true
  | .copy a | .release a | .destroy a => decide (a ∉ s.frames)
  | .assign a b => decide (a ∉ s.frames ∧ b ∉ s.frames)
  | .emplaceBack _ _ | .assignElement _ _ | .erase _ | .popBack | .clear => false

/-- The state after a section; the frame of an accept is made with its first one. -/
def State.next (s : State) (acceptor : Hotplug.State) (refs : DeviceRef.State) : Hotplug.Event → State
  | .accept a =>
    let opRes := Function.update s.opRes a (some s.refs.refs.length)
    ⟨acceptor, refs, opRes, s.frames ++ [s.refs.refs.length]⟩
  | _ => { s with acceptor, refs }

def step (s : State) : Event → Option State
  | .acceptor e reallocates => do
    let acceptor ← Hotplug.machine.step s.acceptor e
    let operations ← operations s reallocates e
    let refs ← DeviceRef.machine.run s.refs operations
    some (s.next acceptor refs e)
  | .caller e =>
    if callers s e then do
      let refs ← DeviceRef.machine.step s.refs e
      some { s with refs }
    else none

def machine : Machine State Event := ⟨step⟩

/-! ### The acceptor and its references -/

open DeviceRef (Leads leads_none leads_destroy leads_take leads_store leads_hand leads_left leads_clear live_lt live_add
  live_put length_add length_put exact_run)

/-- The coroutine has its frame. -/
def Framed (acc : Accept) : Prop := acc.phase ≠ .absent ∧ acc.phase ≠ .finished

/-- The elements hold the queued devices, and the `op_res` of an accept holds its device. -/
structure Coupled (s : State) : Prop where
  elements : s.refs.elements = s.acceptor.mArrivedDevices.map fun info => ⟨some info.dev⟩
  framed : ∀ a, Framed (s.acceptor.accepts a) →
    ∃ i, s.opRes a = some i ∧ s.refs.live i = some ⟨(s.acceptor.accepts a).dev⟩
  finished : ∀ a i, (s.acceptor.accepts a).phase = .finished → s.opRes a = some i → s.refs.live i = none
  numbered : ∀ a i, s.opRes a = some i → i ∈ s.frames ∧ i < s.refs.refs.length
  apart : ∀ a b i, s.opRes a = some i → s.opRes b = some i → a = b
  waiting : ∀ a ∈ s.acceptor.mResumptions, (s.acceptor.accepts a).dev = none

/-- A device that leaves takes the last element out or none, and the caller assigns to empty references. -/
def Even (s : State) : Event → Prop
  | .acceptor (.left dev) _ => ∀ p, departing s.acceptor dev = some p → p + 1 = s.acceptor.mArrivedDevices.length
  | .acceptor _ _ => True
  | .caller e => DeviceRef.OntoEmpty s.refs e

/-- The frame and its device are as before. -/
structure Same (acc new : Accept) : Prop where
  framed : Framed new ↔ Framed acc
  finished : new.phase = .finished ↔ acc.phase = .finished
  dev : new.dev = acc.dev

variable {s s' : State} {S' : Hotplug.State} {e : Hotplug.Event} {reallocates : Bool} {a : Nat} {acc : Accept}

theorem Same.refl (acc : Accept) : Same acc acc := ⟨.rfl, .rfl, rfl⟩

theorem same_of_framed (new : Accept) (before : Framed acc) (after : Framed new) (dev : new.dev = acc.dev) :
    Same acc new :=
  ⟨iff_of_true after before, iff_of_false after.2 before.2, dev⟩

theorem same_onAccept {S : Hotplug.State} {f : Accept → Accept} (same : Same (S.accepts a) (f (S.accepts a)))
    (b : Nat) : Same (S.accepts b) ((S.onAccept a f).accepts b) := by
  rw [State.onAccept_accepts]
  split
  case isTrue here => exact here ▸ same
  case isFalse => exact .refl _

theorem Coupled.pass {es : List DeviceRef.Event} {d' : DeviceRef.State} {changed : Option Nat} {even : Prop}
    (coupled : Coupled s) (leads : Leads s.refs.refs.length s.refs es d' changed even)
    (elements : d'.elements = S'.mArrivedDevices.map fun info => ⟨some info.dev⟩)
    (others : ∀ b, (∀ i, s.opRes b = some i → changed ≠ some i) → Same (s.acceptor.accepts b) (S'.accepts b))
    (own : ∀ b i, s.opRes b = some i → changed = some i →
      (Framed (S'.accepts b) → d'.live i = some ⟨(S'.accepts b).dev⟩) ∧
        ((S'.accepts b).phase = .finished → d'.live i = none))
    (waiting : ∀ b ∈ S'.mResumptions, (S'.accepts b).dev = none) :
    Coupled { s with acceptor := S', refs := d' } := by
  have unchanged : ∀ b, changed = none ∨ s.opRes b ≠ changed →
      ∀ i, s.opRes b = some i → changed ≠ some i := by
    rintro b (rfl | other) i number
    · exact fun same => nomatch same
    · exact fun same => other (number.trans same.symm)
  refine ⟨elements, fun b framed => ?_, fun b i finished number => ?_, fun b i number => ?_, coupled.apart, waiting⟩
  · by_cases here : changed = none ∨ s.opRes b ≠ changed
    · have same := others b (unchanged b here)
      obtain ⟨i, number, live⟩ := coupled.framed b (same.framed.mp framed)
      refine ⟨i, number, ?_⟩
      rw [leads.others i (coupled.numbered b i number).2 (unchanged b here i number), live, same.dev]
    · obtain ⟨i, some'⟩ := Option.ne_none_iff_exists'.mp (not_or.mp here).1
      have number : s.opRes b = some i := (not_not.mp (not_or.mp here).2).trans some'
      exact ⟨i, number, (own b i number some').1 framed⟩
  · by_cases here : changed = some i
    · exact (own b i number here).2 finished
    · have apart : ∀ j, s.opRes b = some j → changed ≠ some j := by
        intro j other
        exact Option.some.inj (number.symm.trans other) ▸ here
      rw [leads.others i (coupled.numbered b i number).2 here]
      exact coupled.finished b i ((others b apart).finished.mp finished) number
  · exact ⟨(coupled.numbered b i number).1, (coupled.numbered b i number).2.trans_le leads.longer⟩

/-- A section that writes to the `op_res` of one accept. -/
theorem Coupled.pass_own {f : Accept → Accept} {i : Nat} {es : List DeviceRef.Event} {d' : DeviceRef.State}
    {even : Prop} (coupled : Coupled s) (number : s.opRes a = some i)
    (leads : Leads s.refs.refs.length s.refs es d' (some i) even)
    (accepts : S'.accepts = (s.acceptor.onAccept a f).accepts)
    (elements : d'.elements = S'.mArrivedDevices.map fun info => ⟨some info.dev⟩)
    (held : Framed (f (s.acceptor.accepts a)) → d'.live i = some ⟨(f (s.acceptor.accepts a)).dev⟩)
    (gone : (f (s.acceptor.accepts a)).phase = .finished → d'.live i = none)
    (waiting : ∀ b ∈ S'.mResumptions, (S'.accepts b).dev = none) :
    Coupled { s with acceptor := S', refs := d' } := by
  refine coupled.pass leads elements (fun b apart => ?_) (fun b j number' here => ?_) waiting
  · have other : b ≠ a := by
      rintro rfl
      exact apart i number rfl
    rw [accepts, State.onAccept_other other]
    exact .refl _
  · obtain rfl := Option.some.inj here
    obtain rfl := coupled.apart b a i number' number
    rw [accepts, State.onAccept_same]
    exact ⟨held, gone⟩

/-- The section performs its operations on references, and keeps the coupling. -/
def Performs (s : State) (e : Hotplug.Event) (reallocates : Bool) (S' : Hotplug.State) : Prop :=
  ∃ es d' changed, operations s reallocates e = some es ∧
    Leads s.refs.refs.length s.refs es d' changed (Even s (.acceptor e reallocates)) ∧
    Coupled { s with acceptor := S', refs := d' }

theorem Coupled.quiet (coupled : Coupled s) (silent : operations s reallocates e = some [])
    (even : Even s (.acceptor e reallocates)) (same : ∀ b, Same (s.acceptor.accepts b) (S'.accepts b))
    (devices : S'.mArrivedDevices = s.acceptor.mArrivedDevices)
    (waiting : ∀ b ∈ S'.mResumptions, b ∈ s.acceptor.mResumptions ∨ (S'.accepts b).dev = none) :
    Performs s e reallocates S' := by
  have leads := leads_none (d := s.refs) none le_rfl
  refine ⟨[], s.refs, none, silent, leads.congr (iff_of_true trivial even), coupled.pass leads ?_ ?_ ?_ ?_⟩
  · rw [devices, coupled.elements]
  · exact fun b _ => same b
  · exact fun _ _ _ => nofun
  · intro b member
    rcases waiting b member with old | none
    · rw [(same b).dev, coupled.waiting b old]
    · exact none

theorem Coupled.takes {info : DevInfo} {devices : List DevInfo} (coupled : Coupled s) (sound : Sound s.acceptor)
    (early : (s.acceptor.accepts a).Early) (last : s.acceptor.mArrivedDevices = devices ++ [info])
    (unserved : s.acceptor.mResumptions = [])
    (performs : operations s reallocates e = take s a) (even : Even s (.acceptor e reallocates)) :
    Performs s e reallocates { s.acceptor.onAccept a (Accept.take info.dev) with mArrivedDevices := devices } := by
  have none := ((sound.accepts a).early early).2.2.2.1
  have framed : Framed (s.acceptor.accepts a) := by
    rcases early with phase | phase | ⟨_, phase⟩ <;> simp [Framed, phase]
  obtain ⟨i, number, live⟩ := coupled.framed a framed
  rw [none] at live
  have elements : s.refs.elements = (devices.map fun info => ⟨some info.dev⟩) ++ [⟨some info.dev⟩] := by
    rw [coupled.elements, last, List.map_append, List.map_singleton]
  obtain ⟨d', leads, rest, taken⟩ := leads_take live elements le_rfl
  refine ⟨_, d', some i, ?_, leads.congr (iff_of_true trivial even),
    coupled.pass_own number leads rfl rest (fun _ => taken) nofun ?_⟩
  · simp [performs, take, last, number]
  · intro b member
    have none : b ∈ s.acceptor.mResumptions := member
    rw [unserved] at none
    cases none

/-- Whoever has been registered has its frame until it finishes. -/
theorem framed_registered {S : Hotplug.State} (sound : Sound S) (registered : (S.accepts a).registered = true)
    (safe : (S.accepts a).phase ≠ .finished) : Framed (S.accepts a) := by
  refine ⟨fun absent => ?_, safe⟩
  have waits := (Accept.sound_registered _ registered).mp (sound.accepts a)
  rw [absent] at waits
  simp at waits

theorem Coupled.hands {rest : List Nat} {desc : DeviceDescriptor} (coupled : Coupled s) (sound : Sound s.acceptor)
    (distinct : s.acceptor.mResumptions.Nodup) (first : s.acceptor.mResumptions = a :: rest)
    (safe : (s.acceptor.accepts a).phase ≠ .finished) : Performs s (.arrived desc) reallocates
      { (s.acceptor.onFrame a (Accept.receive s.acceptor.devices.length)).edit rest with
        devices := s.acceptor.devices ++ [desc] } := by
  have member : a ∈ s.acceptor.mResumptions := by simp [first]
  have framed := framed_registered sound (sound.waiting a member) safe
  obtain ⟨i, number, live⟩ := coupled.framed a framed
  rw [coupled.waiting a member] at live
  obtain ⟨d', leads, elements, given⟩ := leads_hand live le_rfl s.acceptor.devices.length
  refine ⟨_, d', some i, ?_, leads.congr (iff_of_true trivial trivial),
    coupled.pass_own number leads rfl ?_ (fun _ => given) (fun finished => absurd finished safe) ?_⟩
  · simp [operations, first, number]
  · rw [elements, coupled.elements]
    rfl
  · intro b later
    rw [first] at distinct
    have other : b ≠ a := by
      rintro rfl
      exact (List.nodup_cons.mp distinct).1 later
    show ((s.acceptor.onAccept a _).accepts b).dev = none
    rw [State.onAccept_other other]
    exact coupled.waiting b (by rw [first]; exact List.mem_cons_of_mem _ later)

theorem Coupled.leaves {dev : Nat} {desc : DeviceDescriptor} (coupled : Coupled s)
    (known : s.acceptor.devices[dev]? = some desc) : Performs s (.left dev) reallocates (left s.acceptor dev desc) := by
  have length : s.refs.elements.length = s.acceptor.mArrivedDevices.length := by
    rw [coupled.elements, List.length_map]
  have position : departing s.acceptor dev = s.acceptor.mArrivedDevices.findIdx? fun info =>
      wildcardTripletComparator info.triplet (tripletFromDescriptor desc) := by
    simp [departing, known]
  have found : ∀ p, departing s.acceptor dev = some p → p < s.refs.elements.length := by
    intro p at_p
    rw [position] at at_p
    exact length ▸ (List.findIdx?_eq_some_iff_getElem.mp at_p).1
  obtain ⟨d', leads, elements⟩ := leads_left dev le_rfl found
  refine ⟨_, d', none, rfl, leads.congr (by rw [length]; rfl), coupled.pass leads ?_ ?_ ?_ coupled.waiting⟩
  · rw [elements, coupled.elements]
    show _ = List.map _ (s.acceptor.mArrivedDevices.eraseP _)
    rw [List.eraseP_eq_eraseIdx, ← position]
    cases departing s.acceptor dev with
    | none => rfl
    | some p => exact List.eraseIdx_map ..
  · exact fun b _ => .refl _
  · exact fun _ _ _ => nofun

theorem Coupled.resumes (coupled : Coupled s)
    (ready : (s.acceptor.accepts a).phase = .direct ∨
      (s.acceptor.accepts a).phase = .suspended ∧ 0 < (s.acceptor.accepts a).posts) :
    Performs s (.awaitResume a) reallocates (s.acceptor.onAccept a .resume) := by
  have framed : Framed (s.acceptor.accepts a) := by
    rcases ready with phase | ⟨phase, _⟩ <;> simp [Framed, phase]
  have same := same_onAccept (same_of_framed (s.acceptor.accepts a).resume framed ⟨nofun, nofun⟩ rfl)
  have waiting : ∀ b ∈ s.acceptor.mResumptions, ((s.acceptor.onAccept a .resume).accepts b).dev = none :=
    fun b member => (same b).dev.trans (coupled.waiting b member)
  cases failed : (s.acceptor.accepts a).ec.isError with
  | true =>
    have leads := Leads.add (d := s.refs) (e := .construct) le_rfl rfl trivial
      (leads_none none (by rw [length_add]; omega))
    refine ⟨_, _, none, by simp [operations, failed], leads.congr (iff_of_true trivial trivial), ?_⟩
    exact coupled.pass leads coupled.elements (fun b _ => same b) (fun _ _ _ => nofun) waiting
  | false =>
    obtain ⟨i, number, live⟩ := coupled.framed a framed
    have copied : DeviceRef.machine.step s.refs (.copy i) =
        some (s.refs.add (DeviceRef.copy ⟨(s.acceptor.accepts a).dev⟩)) := by
      simp [DeviceRef.machine, DeviceRef.step, live]
    have leads := Leads.add le_rfl copied trivial (leads_none none (by rw [length_add]; omega))
    refine ⟨_, _, none, by simp [operations, failed, number], leads.congr (iff_of_true trivial trivial), ?_⟩
    exact coupled.pass leads coupled.elements (fun b _ => same b) (fun _ _ _ => nofun) waiting

theorem Coupled.finishes (coupled : Coupled s) (resumed : (s.acceptor.accepts a).phase = .resumed) :
    Performs s (.finish a) reallocates (s.acceptor.onAccept a (Accept.move .finished)) := by
  obtain ⟨i, number, live⟩ := coupled.framed a (by simp [Framed, resumed])
  have leads := leads_destroy (n := s.refs.refs.length) live (.inr rfl) (leads_none (some i) length_put.ge)
  refine ⟨_, _, some i, by simp [operations, number], leads.congr (iff_of_true trivial trivial),
    coupled.pass_own number leads rfl coupled.elements (fun framed => absurd rfl framed.2) ?_ fun b member => ?_⟩
  · intro _
    rw [live_put live, if_pos rfl]
  · rw [State.onAccept_accepts]
    split
    case isTrue same => exact coupled.waiting a (same ▸ member)
    case isFalse => exact coupled.waiting b member

/-- Each section but the first of an accept, when it does not write to a frame that is gone. -/
theorem Coupled.performs (coupled : Coupled s) (sound : Sound s.acceptor) (ordered : Ordered s.acceptor)
    (h : Outcome s.acceptor e S') (begun : ∀ a, e ≠ .accept a) (safe : ¬ Dangles s.acceptor e) :
    Performs s e reallocates S' := by
  have distinct := ordered.order.nodup ordered.distinct
  have unserved : ∀ {devices : List DevInfo} {info : DevInfo}, s.acceptor.mArrivedDevices = devices ++ [info] →
      s.acceptor.mResumptions = [] :=
    fun last => ordered.empty.resolve_right (by simp [last])
  have cleared : ∀ {k i : Nat}, Stands s.acceptor e k i →
      operations s reallocates e = some (clear s.acceptor i) ∧ (Even s (.acceptor e reallocates)) := by
    intro k i stands
    cases stands with
    | walk => exact ⟨rfl, trivial⟩
    | relock call => exact ⟨by simp [operations, call], trivial⟩
  cases h with
  | accept => exact absurd rfl (begun _)
  | requestStop => exact coupled.quiet rfl trivial (same_onAccept ⟨.rfl, .rfl, rfl⟩) rfl fun b => .inl
  | stopEarly | stopLate => exact coupled.quiet rfl trivial (same_onAccept ⟨.rfl, .rfl, rfl⟩) rfl fun b => .inl
  | stopWaiting =>
    refine coupled.quiet rfl trivial (same_onAccept ⟨.rfl, .rfl, rfl⟩) rfl fun b member => .inl ?_
    exact List.mem_of_mem_erase member
  | readyTake started last => exact coupled.takes sound (.inl started) last (unserved last) rfl trivial
  | suspendTake tested last =>
    exact coupled.takes sound (.inr (.inr ⟨_, tested⟩)) last (unserved last) (by simp [operations, tested]) trivial
  | unready started none =>
    refine coupled.quiet (by simp [operations, take, none]) trivial (same_onAccept ?_) rfl fun b => .inl
    exact same_of_framed _ (by simp [Framed, started]) ⟨nofun, nofun⟩ rfl
  | stopTest unready =>
    refine coupled.quiet rfl trivial (same_onAccept ?_) rfl fun b => .inl
    exact same_of_framed _ (by simp [Framed, unready]) ⟨nofun, nofun⟩ rfl
  | refused tested =>
    refine coupled.quiet (by simp [operations, tested]) trivial (same_onAccept ?_) rfl fun b => .inl
    exact same_of_framed _ (by simp [Framed, tested]) ⟨nofun, nofun⟩ rfl
  | @register a tested none =>
    have early := (sound.accepts a).early (.inr (.inr ⟨_, tested⟩))
    have same := same_onAccept (same_of_framed (s.acceptor.accepts a).register (by simp [Framed, tested])
      ⟨nofun, nofun⟩ rfl)
    refine coupled.quiet (by simp [operations, take, tested, none]) trivial same rfl fun b member => ?_
    rcases List.mem_append.mp member with old | new
    · exact .inl old
    · obtain rfl := List.mem_singleton.mp new
      exact .inr ((same b).dev.trans early.2.2.2.1)
  | resume ready => exact coupled.resumes ready
  | finish resumed => exact coupled.finishes resumed
  | store none =>
    obtain ⟨d', leads, elements⟩ := leads_store (d := s.refs) s.acceptor.devices.length reallocates le_rfl
    refine ⟨_, d', Option.none, by simp [operations, none], leads.congr (iff_of_true trivial trivial),
      coupled.pass leads ?_ (fun b _ => .refl _) (fun _ _ _ => nofun) coupled.waiting⟩
    rw [elements, coupled.elements, List.map_append]
    rfl
  | hand first =>
    exact coupled.hands sound distinct first fun finished => safe ⟨_, _, first, finished⟩
  | left known => exact coupled.leaves known
  | aside registration aside =>
    have silent : operations s reallocates e = some [] ∧ Even s (.acceptor e reallocates) := by
      cases e <;> first | exact ⟨rfl, trivial⟩ | cases registration
    refine coupled.quiet silent.1 silent.2 (fun b => aside.accepts ▸ .refl _) aside.mArrivedDevices ?_
    exact fun b member => .inl (aside.mResumptions ▸ member)
  | shutdown | deregister => exact coupled.quiet rfl trivial (fun b => .refl _) rfl fun b => .inl
  | visit stands here =>
    obtain ⟨silent, even⟩ := cleared stands
    exact coupled.quiet (by simp [silent, clear, here]) even (fun b => .refl _) rfl fun b => .inl
  | clear stands last =>
    obtain ⟨performed, even⟩ := cleared stands
    have leads := leads_clear (d := s.refs) le_rfl
    refine ⟨_, _, none, by simp only [performed, clear, last, if_true], leads.congr (iff_of_true trivial even), ?_⟩
    exact coupled.pass leads rfl (fun b _ => .refl _) (fun _ _ _ => nofun) fun b member => nomatch member
  | @post k i res edits call =>
    have registered := sound.calls _ _ _ (List.mem_of_getElem? call)
    have framed := framed_registered sound registered fun finished => safe ⟨_, _, _, call, finished⟩
    obtain ⟨j, number, live⟩ := coupled.framed res framed
    refine coupled.quiet ?_ trivial (same_onAccept ⟨.rfl, .rfl, rfl⟩) rfl fun b => .inl
    simp [operations, call, number, live]
  | invalid call changed =>
    exact coupled.quiet (by simp [operations, call, changed]) trivial (fun b => .refl _) rfl fun b => .inl

/-! ### Steps -/

theorem Coupled.begins (coupled : Coupled s) :
    Coupled (s.next (s.acceptor.onAccept a .begin) (s.refs.add ({}, [])) (.accept a)) := by
  have number : ∀ {b i : Nat}, Function.update s.opRes a (some s.refs.refs.length) b = some i →
      b = a ∧ i = s.refs.refs.length ∨ b ≠ a ∧ s.opRes b = some i ∧ i < s.refs.refs.length := by
    intro b i found
    rw [Function.update_apply] at found
    split at found
    case isTrue here => exact .inl ⟨here, (Option.some.inj found).symm⟩
    case isFalse other => exact .inr ⟨other, found, (coupled.numbered b i found).2⟩
  refine ⟨coupled.elements, fun b framed => ?_, fun b i finished found => ?_, fun b i found => ?_,
    fun b c i one two => ?_, fun b member => ?_⟩
  · show ∃ i, Function.update s.opRes a (some s.refs.refs.length) b = some i ∧ (s.refs.add ({}, [])).live i =
      some ⟨((s.acceptor.onAccept a .begin).accepts b).dev⟩
    by_cases here : b = a
    · subst here
      refine ⟨s.refs.refs.length, Function.update_self .., ?_⟩
      rw [live_add, if_pos rfl, State.onAccept_same]
      rfl
    · have framed : Framed ((s.acceptor.onAccept a .begin).accepts b) := framed
      rw [State.onAccept_other here] at framed ⊢
      obtain ⟨i, found, live⟩ := coupled.framed b framed
      refine ⟨i, (Function.update_of_ne here ..).trans found, ?_⟩
      rw [live_add, if_neg (live_lt live).ne, live]
  · have finished : ((s.acceptor.onAccept a .begin).accepts b).phase = .finished := finished
    show (s.refs.add ({}, [])).live i = none
    rcases number found with ⟨rfl, _⟩ | ⟨other, before, lt⟩
    · rw [State.onAccept_same] at finished
      cases finished
    · rw [State.onAccept_other other] at finished
      rw [live_add, if_neg lt.ne]
      exact coupled.finished b i finished before
  · show i ∈ s.frames ++ [s.refs.refs.length] ∧ i < (s.refs.add ({}, [])).refs.length
    rw [length_add]
    rcases number found with ⟨_, rfl⟩ | ⟨_, before, lt⟩
    · exact ⟨by simp, Nat.lt_succ_self _⟩
    · exact ⟨List.mem_append_left _ (coupled.numbered b i before).1, by omega⟩
  · rcases number one with ⟨rfl, same⟩ | ⟨_, first, lt⟩
    · rcases number two with ⟨rfl, _⟩ | ⟨_, _, lt⟩
      · rfl
      · omega
    · rcases number two with ⟨_, same⟩ | ⟨_, second, _⟩
      · omega
      · exact coupled.apart b c i first second
  · have member : b ∈ s.acceptor.mResumptions := member
    show ((s.acceptor.onAccept a .begin).accepts b).dev = none
    rw [State.onAccept_accepts]
    split
    case isTrue => rfl
    case isFalse => exact coupled.waiting b member

/-- The caller's operations reach neither the elements nor the frames. -/
theorem Coupled.calls {e : DeviceRef.Event} {d' : DeviceRef.State} (coupled : Coupled s) (own : callers s e = true)
    (h : DeviceRef.machine.step s.refs e = some d') : Coupled { s with refs := d' } := by
  suffices kept : d'.elements = s.refs.elements ∧ s.refs.refs.length ≤ d'.refs.length ∧
      ∀ i ∈ s.frames, i < s.refs.refs.length → d'.live i = s.refs.live i by
    obtain ⟨elements, longer, live⟩ := kept
    have same : ∀ {b i}, s.opRes b = some i → d'.live i = s.refs.live i := by
      intro b i number
      obtain ⟨inside, lt⟩ := coupled.numbered b i number
      exact live i inside lt
    refine ⟨elements.trans coupled.elements, fun b framed => ?_, fun b i finished number => ?_, fun b i number => ?_,
      coupled.apart, coupled.waiting⟩
    · obtain ⟨i, number, held⟩ := coupled.framed b framed
      exact ⟨i, number, (same number).trans held⟩
    · exact (same number).trans (coupled.finished b i finished number)
    · exact ⟨(coupled.numbered b i number).1, (coupled.numbered b i number).2.trans_le longer⟩
  have added : ∀ new : DeviceRef × List DeviceRef.Call, (s.refs.add new).elements = s.refs.elements ∧
      s.refs.refs.length ≤ (s.refs.add new).refs.length ∧
      ∀ i ∈ s.frames, i < s.refs.refs.length → (s.refs.add new).live i = s.refs.live i := by
    refine fun new => ⟨rfl, by rw [length_add]; omega, fun i _ lt => ?_⟩
    rw [live_add, if_neg lt.ne]
  have put : ∀ {a r}, s.refs.live a = some r → a ∉ s.frames → ∀ next calls,
      (s.refs.put a next calls).elements = s.refs.elements ∧
      s.refs.refs.length ≤ (s.refs.put a next calls).refs.length ∧
      ∀ i ∈ s.frames, i < s.refs.refs.length → (s.refs.put a next calls).live i = s.refs.live i := by
    intro a r live out next calls
    refine ⟨rfl, length_put.ge, fun i inside _ => ?_⟩
    rw [live_put live, if_neg]
    rintro rfl
    exact out inside
  change DeviceRef.step s.refs e = some d' at h
  cases e with
  | construct | fromDevice => exact Option.some.inj h ▸ added _
  | copy b =>
    obtain ⟨other, live, h⟩ := Option.bind_eq_some_iff.mp h
    exact Option.some.inj h ▸ added _
  | assign a b =>
    obtain ⟨this, live, h⟩ := Option.bind_eq_some_iff.mp h
    obtain ⟨other, _, h⟩ := Option.bind_eq_some_iff.mp h
    obtain rfl := Option.some.inj h
    exact put live (of_decide_eq_true own).1 _ _
  | release a =>
    obtain ⟨this, live, h⟩ := Option.bind_eq_some_iff.mp h
    obtain rfl := Option.some.inj h
    exact put live (of_decide_eq_true own) (some this.release.1) []
  | destroy a =>
    obtain ⟨this, live, h⟩ := Option.bind_eq_some_iff.mp h
    obtain rfl := Option.some.inj h
    exact put live (of_decide_eq_true own) _ _
  | emplaceBack | assignElement | erase | popBack | clear => cases own

theorem next_eq {S' : Hotplug.State} {d' : DeviceRef.State} (begun : ∀ a, e ≠ .accept a) :
    s.next S' d' e = { s with acceptor := S', refs := d' } := by
  cases e with
  | accept a => exact absurd rfl (begun a)
  | _ => rfl

/-- Nothing can be written to a frame that is gone. -/
theorem Coupled.dangling {es : List DeviceRef.Event} (coupled : Coupled s) (dangles : Dangles s.acceptor e)
    (performs : operations s reallocates e = some es) : DeviceRef.machine.run s.refs es = none := by
  cases e with
  | arrived desc =>
    obtain ⟨a, rest, first, finished⟩ := dangles
    simp only [operations, first] at performs
    obtain ⟨i, number, same⟩ := Option.bind_eq_some_iff.mp performs
    obtain rfl := Option.some.inj same
    have lt := (coupled.numbered a i number).2
    let dev := s.acceptor.devices.length
    have gone : ((s.refs.add (DeviceRef.ofDevice dev)).add (DeviceRef.ofDevice dev)).live i = none := by
      rw [live_add, length_add, if_neg (by omega), live_add, if_neg lt.ne]
      exact coupled.finished a i finished number
    apply Option.eq_none_iff_forall_ne_some.mpr
    intro d' run
    obtain ⟨d₁, first, run⟩ := Machine.run_cons.mp run
    obtain ⟨d₂, second, run⟩ := Machine.run_cons.mp run
    obtain ⟨d₃, assigned, _⟩ := Machine.run_cons.mp run
    obtain rfl := Option.some.inj first
    obtain rfl := Option.some.inj second
    obtain ⟨this, live, _⟩ := Option.bind_eq_some_iff.mp assigned
    exact nomatch gone.symm.trans live
  | post k =>
    obtain ⟨i, res, edits, call, finished⟩ := dangles
    simp only [operations, call] at performs
    obtain ⟨j, number, performs⟩ := Option.bind_eq_some_iff.mp performs
    obtain ⟨_, live, _⟩ := Option.bind_eq_some_iff.mp performs
    exact nomatch (coupled.finished res j finished number).symm.trans live
  | _ => cases dangles

theorem step_acceptor (h : machine.step s (.acceptor e reallocates) = some s') :
    ∃ S' es d', Hotplug.machine.step s.acceptor e = some S' ∧ operations s reallocates e = some es ∧
      DeviceRef.machine.run s.refs es = some d' ∧ s' = s.next S' d' e := by
  obtain ⟨S', acceptor, h⟩ := Option.bind_eq_some_iff.mp h
  obtain ⟨es, performs, h⟩ := Option.bind_eq_some_iff.mp h
  obtain ⟨d', run, h⟩ := Option.bind_eq_some_iff.mp h
  exact ⟨S', es, d', acceptor, performs, run, (Option.some.inj h).symm⟩

theorem step_of {es : List DeviceRef.Event} {d' : DeviceRef.State}
    (acceptor : Hotplug.machine.step s.acceptor e = some S') (performs : operations s reallocates e = some es)
    (run : DeviceRef.machine.run s.refs es = some d') :
    machine.step s (.acceptor e reallocates) = some (s.next S' d' e) := by
  show step s (.acceptor e reallocates) = _
  simp [step, acceptor, performs, run]

/-- What every run keeps. -/
structure Sound (s : State) : Prop where
  coupled : Coupled s
  acceptor : Hotplug.Sound s.acceptor
  ordered : Ordered s.acceptor
  filled : DeviceRef.Filled s.refs
  solvent : (DeviceRef.account s.refs).Solvent

theorem sound_initial : Sound {} := by
  refine ⟨⟨rfl, fun a framed => absurd rfl framed.1, fun _ _ => nofun, fun _ _ => nofun, fun _ _ _ => nofun, ?_⟩,
    Hotplug.sound_initial, ordered_initial, by simp [DeviceRef.Filled], fun _ => le_rfl⟩
  intro a member
  cases member

/-- A section is a step with its operations, unless it writes to a frame that is gone. -/
theorem Sound.section (reallocates : Bool) (sound : Sound s) (acceptor : Hotplug.machine.step s.acceptor e = some S')
    (safe : ¬ Dangles s.acceptor e) : ∃ es d', operations s reallocates e = some es ∧
      DeviceRef.machine.run s.refs es = some d' ∧ Coupled (s.next S' d' e) ∧
      (DeviceRef.machine.Meets DeviceRef.OntoEmpty s.refs es ↔ Even s (.acceptor e reallocates)) := by
  have outcome := (step_outcome acceptor).1
  by_cases begun : ∀ a, e ≠ .accept a
  · have followed : Performs s e reallocates S' :=
      sound.coupled.performs sound.acceptor sound.ordered outcome begun safe
    obtain ⟨es, d', _, performs, leads, coupled⟩ := followed
    exact ⟨es, d', performs, leads.run, next_eq begun ▸ coupled, leads.even⟩
  · obtain ⟨a, rfl⟩ : ∃ a, e = .accept a := by simpa using begun
    have begins : S' = s.acceptor.onAccept a .begin := by
      cases outcome with
      | accept => rfl
      | aside registration => cases registration
      | visit stands | clear stands => cases stands
    have leads := Leads.add (d := s.refs) (e := .construct) le_rfl rfl trivial
      (leads_none none (by rw [length_add]; omega))
    exact ⟨_, _, rfl, leads.run, begins ▸ sound.coupled.begins, leads.even⟩

theorem Sound.enabled_iff (sound : Sound s) (acceptor : Hotplug.machine.step s.acceptor e = some S') :
    (machine.step s (.acceptor e reallocates)).isSome = true ↔ ¬ Dangles s.acceptor e := by
  constructor
  · intro enabled dangles
    obtain ⟨s', h⟩ := Option.isSome_iff_exists.mp enabled
    obtain ⟨_, es, d', _, performs, run, _⟩ := step_acceptor h
    exact nomatch (sound.coupled.dangling dangles performs).symm.trans run
  · intro safe
    obtain ⟨es, d', performs, run, _⟩ := sound.section reallocates acceptor safe
    rw [step_of acceptor performs run]
    rfl

theorem sound_step {e : Event} (sound : Sound s) (h : machine.step s e = some s') :
    Sound s' ∧ (DeviceRef.Exact s'.refs ↔ DeviceRef.Exact s.refs ∧ Even s e) := by
  have kept := And.intro sound.filled sound.solvent
  cases e with
  | caller e =>
    have h : (if callers s e then _ else none) = some s' := h
    rw [Option.ite_none_right_eq_some] at h
    obtain ⟨own, h⟩ := h
    obtain ⟨d', step, h⟩ := Option.bind_eq_some_iff.mp h
    obtain rfl := Option.some.inj h
    obtain ⟨⟨filled, solvent⟩, same⟩ := exact_run kept (Machine.run_cons.mpr ⟨d', step, Machine.run_nil⟩)
    refine ⟨⟨sound.coupled.calls own step, sound.acceptor, sound.ordered, filled, solvent⟩, ?_⟩
    rw [same, Machine.meets_cons_of step, and_iff_left Machine.meets_nil]
    rfl
  | acceptor e reallocates =>
    obtain ⟨S', es, d', acceptor, performs, run, rfl⟩ := step_acceptor h
    have safe : ¬ Dangles s.acceptor e := (sound.enabled_iff acceptor).mp (Option.isSome_iff_exists.mpr ⟨_, h⟩)
    obtain ⟨es', d'', performs', run', coupled, even⟩ := sound.section reallocates acceptor safe
    obtain rfl := Option.some.inj (performs.symm.trans performs')
    obtain rfl := Option.some.inj (run.symm.trans run')
    obtain ⟨⟨filled, solvent⟩, same⟩ := exact_run kept run
    have outcome := (step_outcome acceptor).1
    have fields : ∃ opRes frames, s.next S' d' e = ⟨S', d', opRes, frames⟩ := by cases e <;> exact ⟨_, _, rfl⟩
    obtain ⟨opRes, frames, next⟩ := fields
    rw [next] at coupled ⊢
    refine ⟨⟨coupled, ?_, ?_, filled, solvent⟩, same.trans (and_congr_right' even)⟩
    · exact Hotplug.sound_step sound.acceptor outcome
    · exact ordered_step sound.acceptor sound.ordered outcome

/-! ### Runs -/

/-- In every run of an acceptor and of what its callers do with the references they were given, the elements hold the
queued devices and each `op_res` the device of its accept; a section can be run unless the callback or `shutdown` is
about to write to the frame of an accept that has finished. The calls for each device balance exactly when every device
that left was found last in the queue, or not at all, and no caller assigned to a reference that held a device. -/
theorem acceptor_references_exact_iff {es : List Event} (run : machine.run {} es = some s) : Coupled s ∧
    (∀ e reallocates S', Hotplug.machine.step s.acceptor e = some S' →
      ((machine.step s (.acceptor e reallocates)).isSome = true ↔ ¬ Dangles s.acceptor e)) ∧
    (DeviceRef.Exact s.refs ↔ machine.Meets Even {} es) := by
  obtain ⟨sound, exact⟩ := Machine.meets_iff (P := fun s => DeviceRef.Exact s.refs) sound_step sound_initial
    (fun _ => rfl) run
  exact ⟨sound.coupled, fun e reallocates S' acceptor => sound.enabled_iff acceptor, exact⟩

/-- Of two devices the last one leaves and the first one is accepted; the caller drops it. -/
def lastLeaves : List Event :=
  ([.arrived ⟨1, 2, 0⟩, .arrived ⟨3, 4, 0⟩, .left 1, .accept 0, .awaitReady 0, .awaitResume 0,
    .finish 0] : List Hotplug.Event).map (.acceptor · true) ++ [.caller (.destroy 4)]

theorem lastLeaves_even : machine.Meets Even {} lastLeaves := by
  refine (Machine.meets_cons_of rfl).mpr ⟨trivial, (Machine.meets_cons_of rfl).mpr ⟨trivial, ?_⟩⟩
  refine (Machine.meets_cons_of rfl).mpr ⟨fun p found => ?_, Machine.meets_of_forall ?_⟩
  · obtain rfl : 1 = p := Option.some.inj found
    rfl
  · simp [Even, DeviceRef.OntoEmpty]

theorem acceptor_references_exact_iff_last : ∃ s, machine.run {} lastLeaves = some s ∧ Coupled s ∧
    s.acceptor.mArrivedDevices = [] ∧ DeviceRef.Exact s.refs := by
  obtain ⟨s, run, queue⟩ : ∃ s, machine.run {} lastLeaves = some s ∧ s.acceptor.mArrivedDevices = [] := ⟨_, rfl, rfl⟩
  obtain ⟨coupled, _, exact⟩ := acceptor_references_exact_iff run
  exact ⟨s, run, coupled, queue, exact.mpr lastLeaves_even⟩

end CoUsb.Hotplug.Referenced

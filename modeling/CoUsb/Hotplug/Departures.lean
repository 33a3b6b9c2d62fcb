import CoUsb.Hotplug.Outcomes

/-!
# Devices that leave

A LEFT event takes out of the queue the first device with a matching triplet, whichever device left.
-/

namespace CoUsb.Hotplug

variable {s s' : State} {e : Event} {es : List Event} {d : Nat} {desc : DeviceDescriptor}

/-! ### The first match of a list -/

section

variable {α β : Type*} [DecidableEq β] {f : α → β} {p : α → Bool} {l : List α} {y : β}

/-- Where everything at `y` matches, erasing the first match erases what is at `y` exactly when the first match is
there. -/
theorem eraseP_eq_filter_iff (distinct : (l.map f).Nodup) (own : ∀ x ∈ l, f x = y → p x = true) :
    l.eraseP p = l.filter (fun x => f x ≠ y) ↔ ∀ x, l.find? p = some x → f x = y := by
  cases found : l.find? p with
  | none =>
    have unmatched := List.find?_eq_none.mp found
    have elsewhere : l.filter (fun x => f x ≠ y) = l := by
      apply List.filter_eq_self.mpr
      intro x member
      exact decide_eq_true fun here => unmatched x member (own x member here)
    rw [List.eraseP_of_forall_not unmatched, elsewhere]
    simp
  | some x =>
    obtain ⟨here, before, after, rfl, earlier⟩ := List.find?_eq_some_iff_append.mp found
    have unmatched : ∀ z ∈ before, ¬ p z = true := fun z member => by simpa using earlier z member
    have erased : (before ++ x :: after).eraseP p = before ++ after := by
      rw [List.eraseP_append_right _ unmatched, List.eraseP_cons_of_pos here]
    rw [List.map_append, List.map_cons, List.nodup_middle, List.nodup_cons, List.mem_append] at distinct
    have alone : ∀ z ∈ before ++ after, f z ≠ f x := by
      intro z member same
      rw [List.mem_append] at member
      exact distinct.1 (member.imp (fun h => same ▸ List.mem_map_of_mem h) fun h => same ▸ List.mem_map_of_mem h)
    rw [erased]
    constructor
    · intro same z first
      obtain rfl := Option.some.inj first
      by_contra elsewhere
      have kept : x ∈ (before ++ x :: after).filter fun z => f z ≠ y := by simp [elsewhere]
      rw [← same] at kept
      exact alone x kept rfl
    · intro first
      obtain rfl := first x rfl
      have kept := fun l (part : ∀ z ∈ l, f z ≠ f x) =>
        List.filter_eq_self.mpr fun z member => decide_eq_true (part z member)
      rw [List.filter_append, List.filter_cons_of_neg (by simp),
        kept before fun z member => alone z (List.mem_append_left _ member),
        kept after fun z member => alone z (List.mem_append_right _ member)]

end

/-! ### The queue -/

/-- After LEFT for `d` the queue is what it was without `d`. -/
def LeavesExactly (s : State) : Event → Prop
  | .left d => ∀ desc, s.devices[d]? = some desc →
    (left s d desc).mArrivedDevices = s.mArrivedDevices.filter fun info => info.dev ≠ d
  | _ => True

/-- An accept that takes a device from the queue takes one that has not left. -/
def TakesPresent (s : State) : Event → Prop
  | .awaitReady _ | .awaitSuspend _ => ∀ info, s.mArrivedDevices.getLast? = some info → info.dev ∉ s.gone
  | _ => True

/-- The first queued device with the vendor id, product id and class of the one that leaves is that one. -/
def FirstIsOwn (s : State) : Event → Prop
  | .left d => ∀ desc, s.devices[d]? = some desc → ∀ info,
    (s.mArrivedDevices.find? fun info => wildcardTripletComparator info.triplet (tripletFromDescriptor desc)) =
      some info → info.dev = d
  | _ => True

theorem wildcardTripletComparator_self (triplet : DeviceTriplet) :
    wildcardTripletComparator triplet triplet = true := by
  simp [wildcardTripletComparator, wildcardTripletComparator.cmp]

structure Queued (s : State) : Prop where
  distinct : (s.mArrivedDevices.map DevInfo.dev).Nodup
  known : ∀ info ∈ s.mArrivedDevices, ∃ desc, s.devices[info.dev]? = some desc ∧
    info.triplet = tripletFromDescriptor desc

theorem Queued.fewer (queued : Queued s) (devices : s'.devices = s.devices)
    (sublist : s'.mArrivedDevices.Sublist s.mArrivedDevices) : Queued s' := by
  refine ⟨queued.distinct.sublist (sublist.map _), fun info member => ?_⟩
  rw [devices]
  exact queued.known info (sublist.subset member)

theorem Queued.lt (queued : Queued s) {info : DevInfo} (member : info ∈ s.mArrivedDevices) :
    info.dev < s.devices.length := by
  obtain ⟨desc, known, _⟩ := queued.known info member
  exact (List.getElem?_eq_some_iff.mp known).1

theorem queued_step (queued : Queued s) (h : Outcome s e s') : Queued s' := by
  have later : ∀ {info desc}, info ∈ s.mArrivedDevices → ∃ desc', (s.devices ++ [desc])[info.dev]? = some desc' ∧
      info.triplet = tripletFromDescriptor desc' := by
    intro info desc member
    rw [List.getElem?_append_left (queued.lt member)]
    exact queued.known info member
  cases h with
  | readyTake _ last | suspendTake _ last => exact queued.fewer rfl (last ▸ List.sublist_append_left _ _)
  | store =>
    refine ⟨?_, fun info member => ?_⟩
    · rw [List.map_append, List.map_singleton, List.nodup_append_comm, List.singleton_append, List.nodup_cons]
      refine ⟨fun member => ?_, queued.distinct⟩
      obtain ⟨info, old, same⟩ := List.mem_map.mp member
      exact absurd (queued.lt old) (by simp [same])
    · rcases List.mem_append.mp member with old | new
      · exact later old
      · obtain rfl := List.mem_singleton.mp new
        exact ⟨_, List.getElem?_concat_length, rfl⟩
  | hand => exact ⟨queued.distinct, fun info member => later member⟩
  | left => exact queued.fewer rfl List.eraseP_sublist
  | clear => exact queued.fewer rfl (List.nil_sublist _)
  | aside _ aside => exact queued.fewer aside.devices (aside.mArrivedDevices ▸ .refl _)
  | _ => exact queued.fewer rfl (.refl _)

theorem queued_initial : Queued {} := ⟨List.nodup_nil, fun _ member => by cases member⟩

theorem queued_run (h : machine.run {} es = some s) : Queued s :=
  Machine.run_invariant (fun queued step => queued_step queued (step_outcome step).1) queued_initial h

theorem leavesExactly_iff (queued : Queued s) : LeavesExactly s e ↔ FirstIsOwn s e := by
  cases e with
  | left d =>
    refine forall₂_congr fun desc known => eraseP_eq_filter_iff queued.distinct fun info member here => ?_
    obtain ⟨own, recorded, triplet⟩ := queued.known info member
    rw [here, known] at recorded
    obtain rfl := Option.some.inj recorded
    rw [triplet]
    exact wildcardTripletComparator_self _
  | _ => exact Iff.rfl

/-! ### Devices that have left -/

/-- No queued device has left. -/
structure Present (s : State) : Prop where
  arrived : ∀ d ∈ s.gone, d < s.devices.length
  queued : ∀ info ∈ s.mArrivedDevices, info.dev ∉ s.gone

theorem gone_step (h : machine.step s e = some s') : s'.gone = s.gone ∨
    ∃ d desc, e = .left d ∧ s.devices[d]? = some desc ∧ s' = left s d desc := by
  have next := (step_next h).1
  cases next_outcome next with
  | left known => exact .inr ⟨_, _, rfl, known, rfl⟩
  | aside registration =>
    left
    cases e with
    | bindEc triplet => exact Option.some.inj next ▸ rfl
    | bind triplet =>
      obtain rfl := Option.some.inj next
      unfold bind
      split <;> rfl
    | listen r =>
      obtain rfl := Option.some.inj next
      unfold listen
      split_ifs <;> rfl
    | close =>
      obtain rfl := Option.some.inj next
      unfold close
      split <;> rfl
    | _ => cases registration
  | _ => exact .inl rfl

theorem Outcome.queue (h : Outcome s e s') : s.devices.length ≤ s'.devices.length ∧
    ∀ info ∈ s'.mArrivedDevices, info ∈ s.mArrivedDevices ∨ info.dev = s.devices.length := by
  cases h with
  | readyTake _ last | suspendTake _ last =>
    exact ⟨le_rfl, fun info member => .inl (last ▸ List.mem_append_left _ member)⟩
  | store =>
    refine ⟨by simp, fun info member => (List.mem_append.mp member).imp_right fun new => ?_⟩
    rw [List.mem_singleton.mp new]
  | hand => exact ⟨by simp, fun info member => .inl member⟩
  | left => exact ⟨le_rfl, fun info member => .inl (List.eraseP_sublist.subset member)⟩
  | clear => exact ⟨le_rfl, fun info member => by cases member⟩
  | aside _ aside => exact ⟨aside.devices ▸ le_rfl, fun info member => .inl (aside.mArrivedDevices ▸ member)⟩
  | _ => exact ⟨le_rfl, fun info member => .inl member⟩

theorem present_step (queued : Queued s) (present : Present s) (own : FirstIsOwn s e)
    (h : machine.step s e = some s') : Present s' := by
  obtain ⟨longer, added⟩ := (step_outcome h).1.queue
  rcases gone_step h with same | ⟨d, desc, rfl, known, rfl⟩
  · refine ⟨fun d gone => (present.arrived d (same ▸ gone)).trans_le longer, fun info member => ?_⟩
    rw [same]
    rcases added info member with old | new
    · exact present.queued info old
    · exact fun gone => absurd (present.arrived _ gone) (by simp [new])
  · have exact := (leavesExactly_iff queued).mpr own desc known
    refine ⟨fun b gone => ?_, fun info member => ?_⟩
    · rcases List.mem_append.mp gone with old | new
      · exact present.arrived b old
      · exact List.mem_singleton.mp new ▸ (List.getElem?_eq_some_iff.mp known).1
    · rw [exact, List.mem_filter, decide_eq_true_eq] at member
      show info.dev ∉ s.gone ++ [d]
      rw [List.mem_append, List.mem_singleton]
      exact not_or.mpr ⟨present.queued info member.1, member.2⟩

theorem present_run (h : machine.run {} es = some s) (own : machine.Meets FirstIsOwn {} es) : Present s := by
  have kept : Queued s ∧ Present s := by
    refine Machine.run_invariant_of_meets (I := fun s => Queued s ∧ Present s) ?_
      ⟨queued_initial, by simp, by simp⟩ h own
    rintro s e s' ⟨queued, present⟩ own step
    exact ⟨queued_step queued (step_outcome step).1, present_step queued present own step⟩
  exact kept.2

/-- Every LEFT event of a run takes exactly its device out of the queue, and no accept takes a device that has left,
exactly when at every LEFT event the first queued device with a matching triplet is the one that leaves. -/
theorem departures_exact_iff (es : List Event) :
    machine.Meets (fun s e => LeavesExactly s e ∧ TakesPresent s e) {} es ↔ machine.Meets FirstIsOwn {} es := by
  constructor
  · intro exact fs e u initial reached
    exact (leavesExactly_iff (queued_run reached)).mp (exact fs e u initial reached).1
  · intro own fs e u initial reached
    have present := present_run reached (own.of_prefix ((List.prefix_append fs [e]).trans initial))
    refine ⟨(leavesExactly_iff (queued_run reached)).mpr (own fs e u initial reached), ?_⟩
    cases e with
    | awaitReady | awaitSuspend => exact fun info last => present.queued info (List.mem_of_getLast? last)
    | _ => trivial

def keyboard : DeviceDescriptor := ⟨0x046d, 0xc31c, 3⟩

/-- Of two equal devices the one that stays is taken out, and an accept takes the one that has left. -/
theorem identical_device_removed : ∃ s, machine.run {}
      [.listen 0, .arrived keyboard, .arrived keyboard, .left 1, .accept 0, .awaitReady 0] = some s ∧
      s.gone = [1] ∧ (s.accepts 0).dev = some 1 ∧ s.mArrivedDevices = [] ∧
      ¬ machine.Meets (fun s e => LeavesExactly s e ∧ TakesPresent s e) {}
        [.listen 0, .arrived keyboard, .arrived keyboard, .left 1, .accept 0, .awaitReady 0] := by
  refine ⟨_, rfl, rfl, rfl, rfl, fun exact => ?_⟩
  have left := (exact [.listen 0, .arrived keyboard, .arrived keyboard] (.left 1) _ (by simp) rfl).1 keyboard rfl
  exact absurd left (by decide)

end CoUsb.Hotplug

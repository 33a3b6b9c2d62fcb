import CoUsb.Hotplug.Waiting
import CoUsb.Lib.Custody

/-!
# Where the devices are

As long as none leaves and nothing is shut down, every device that arrived is queued or was
assigned to one accept. The accept keeps it unless its stop callback runs before its coroutine.
-/

namespace CoUsb.Hotplug

variable {s s' : State} {e : Event} {es : List Event} {a b d : Nat} {acc new : Accept}

/-- The devices in the queue and with the accepts. -/
def custodyOf (s : State) : Custody Nat where
  count := s.devices.length
  stored := s.mArrivedDevices.map DevInfo.dev
  owned a := (s.accepts a).dev

/-- The device the accept returns, or will return, with an empty error code. -/
def Accept.outcome (acc : Accept) : Option Nat :=
  match acc.result with
  | some (ec, dev) => if ec.isError then none else dev
  | none => if acc.ec.isError then none else acc.dev

inductive Place where
  | queue
  | accept (a : Nat)
  deriving DecidableEq

def Holds (s : State) : Place → Nat → Prop
  | .queue, d => d ∈ s.mArrivedDevices.map DevInfo.dev
  | .accept a, d => (s.accepts a).outcome = some d

/-- Every device that arrived is in one place, and who returns `operation_canceled` took none. -/
structure Conserved (s : State) : Prop where
  queued : (s.mArrivedDevices.map DevInfo.dev).Nodup
  placed : ∀ d < s.devices.length, ∃! p, Holds s p d
  canceled : ∀ a ec dev, (s.accepts a).result = some (ec, dev) → ec.isError = true → (s.accepts a).dev = none

/-- Neither a device leaves nor is the acceptor shut down. -/
def Event.quiet : Event → Bool
  | .left _ | .shutdown => false
  | _ => true

/-- No stop callback runs between the assignment of a device and the coroutine. -/
def KeepsDevice (s : State) : Event → Prop
  | .stopFn a => (s.accepts a).phase = .suspended → (s.accepts a).dev = none
  | _ => True

namespace Accept

/-- Registered, and nobody has answered yet. -/
structure Pending (acc : Accept) : Prop where
  phase : acc.phase = .suspended
  ec : acc.ec = {}
  dev : acc.dev = none
  posts : acc.posts = 0

/-- The result is the device or an error. -/
def Reported (acc : Accept) : Prop :=
  ∀ ec dev, acc.result = some (ec, dev) → ec.isError = true ∧ dev = none ∨ ec = {} ∧ dev = acc.dev

theorem reported_none (none : acc.result = none) : acc.Reported := by
  intro ec dev result
  rw [none] at result
  cases result

theorem reported_resume (acc : Accept) : acc.resume.Reported := by
  intro ec dev result
  have same := Option.some.inj result
  split at same
  case isTrue failed =>
    obtain ⟨rfl, rfl⟩ := Prod.mk.inj same
    exact .inl ⟨failed, rfl⟩
  case isFalse =>
    obtain ⟨rfl, rfl⟩ := Prod.mk.inj same
    exact .inr ⟨rfl, rfl⟩

theorem Reported.dev_of_outcome (reported : acc.Reported) (answer : acc.outcome = some d) : acc.dev = some d := by
  unfold outcome at answer
  split at answer
  case h_1 ec dev result =>
    split at answer
    · cases answer
    · rename_i fine
      rcases reported ec dev result with ⟨failed, _⟩ | ⟨_, rfl⟩
      · exact absurd failed fine
      · exact answer
  case h_2 =>
    split at answer
    · cases answer
    · exact answer

end Accept

/-- The invariant of the runs in which nothing is taken away. -/
structure Located (s : State) : Prop where
  calls : s.shutdowns = []
  waiting : ∀ a ∈ s.mResumptions, (s.accepts a).Pending
  custody : (custodyOf s).Valid
  reported : ∀ a, (s.accepts a).Reported

theorem located_initial : Located {} :=
  ⟨rfl, by simp, Custody.empty_valid, fun _ => Accept.reported_none rfl⟩

theorem Located.apart (located : Located s) (phase : (s.accepts a).phase ≠ .suspended) (waiting : b ∈ s.mResumptions) :
    b ≠ a := by
  rintro rfl
  exact phase (located.waiting b waiting).phase

theorem devs_onAccept {f : Accept → Accept} : (fun b => ((s.onAccept a f).accepts b).dev) =
    Function.update (fun b => (s.accepts b).dev) a (f (s.accepts a)).dev := by
  funext b
  rw [State.onAccept_accepts, Function.update_apply]
  split <;> rfl

theorem custody_onAccept {f : Accept → Accept} (dev : (f (s.accepts a)).dev = (s.accepts a).dev) :
    custodyOf (s.onAccept a f) = custodyOf s := by
  unfold custodyOf
  rw [devs_onAccept, dev, Function.update_eq_self]
  rfl

theorem Located.change {f : Accept → Accept} (located : Located s) (accepts : s'.accepts = (s.onAccept a f).accepts)
    (calls : s'.shutdowns = s.shutdowns) (devices : s'.devices = s.devices)
    (arrived : s'.mArrivedDevices = s.mArrivedDevices) (dev : (f (s.accepts a)).dev = (s.accepts a).dev)
    (result : (f (s.accepts a)).Reported)
    (waiting : ∀ b ∈ s'.mResumptions, b ≠ a ∧ b ∈ s.mResumptions ∨ b = a ∧ (f (s.accepts a)).Pending) : Located s' := by
  have same : custodyOf s' = custodyOf s := by
    rw [← custody_onAccept dev]
    unfold custodyOf
    rw [accepts, devices, arrived]
    rfl
  refine ⟨calls.trans located.calls, fun b member => ?_, same ▸ located.custody, fun b => ?_⟩
  · rw [accepts]
    rcases waiting b member with ⟨other, before⟩ | ⟨rfl, pending⟩
    · rw [State.onAccept_other other]
      exact located.waiting b before
    · rw [State.onAccept_same]
      exact pending
  · rw [accepts, State.onAccept_accepts]
    split
    · exact result
    · exact located.reported b

theorem Located.take {rest : List DevInfo} {info : DevInfo} (located : Located s) (sound : Sound s)
    (early : (s.accepts a).Early) (last : s.mArrivedDevices = rest ++ [info]) :
    Located { s.onAccept a (Accept.take info.dev) with mArrivedDevices := rest } := by
  have none := (sound.accepts a).early early
  have phase : (s.accepts a).phase ≠ .suspended := by
    rcases early with phase | phase | ⟨_, phase⟩ <;> simp [phase]
  refine ⟨located.calls, fun b member => ?_, ?_, fun b => ?_⟩
  · show ((s.onAccept a _).accepts b).Pending
    rw [State.onAccept_other (located.apart phase member)]
    exact located.waiting b member
  · have stored : (custodyOf s).stored = rest.map DevInfo.dev ++ [info.dev] := by simp [custodyOf, last]
    have taken := Custody.Valid.take (i := a) located.custody stored none.2.2.2.1
    show Custody.Valid ⟨_, _, fun b => ((s.onAccept a (Accept.take info.dev)).accepts b).dev⟩
    rw [devs_onAccept]
    exact taken
  · show ((s.onAccept a _).accepts b).Reported
    rw [State.onAccept_accepts]
    split
    · exact Accept.reported_none none.2.2.2.2.2
    · exact located.reported b

theorem Located.hand {rest : List Nat} (located : Located s) (sound : Sound s) (distinct : s.mResumptions.Nodup)
    (first : s.mResumptions = a :: rest) (desc : DeviceDescriptor) :
    Located { (s.onFrame a (.receive s.devices.length)).edit rest with devices := s.devices ++ [desc] } := by
  have pending := located.waiting a (by simp [first])
  have apart : a ∉ rest := by
    rw [first] at distinct
    exact (List.nodup_cons.mp distinct).1
  refine ⟨located.calls, fun b member => ?_, ?_, fun b => ?_⟩
  · have other : b ≠ a := fun same => apart (same ▸ member)
    show ((s.onAccept a _).accepts b).Pending
    rw [State.onAccept_other other]
    exact located.waiting b (by rw [first]; exact List.mem_cons_of_mem _ member)
  · have delivered := located.custody.deliver (c := custodyOf s) (i := a) pending.dev
    have devs : (fun b => ((s.onAccept a (Accept.receive s.devices.length)).accepts b).dev) =
        Function.update (custodyOf s).owned a (some s.devices.length) := devs_onAccept
    show Custody.Valid ⟨(s.devices ++ [desc]).length, _,
      fun b => ((s.onAccept a (Accept.receive s.devices.length)).accepts b).dev⟩
    rw [devs, List.length_append]
    exact delivered
  · show ((s.onAccept a _).accepts b).Reported
    rw [State.onAccept_accepts]
    split
    · have was := sound.accepts a
      unfold Accept.Sound at was
      rw [pending.phase] at was
      exact Accept.reported_none was.2.2
    · exact located.reported b

theorem located_step (sound : Sound s) (ordered : Ordered s) (located : Located s) (quiet : e.quiet = true)
    (h : Outcome s e s') : Located s' := by
  have distinct := ordered.order.nodup ordered.distinct
  have none : ∀ {k : Nat} {c}, s.shutdowns[k]? ≠ some c := by simp [located.calls]
  have stands : ∀ {k i}, ¬ Stands s e k i := by
    intro k i stands
    cases stands with
    | walk call | relock call => exact none call
  have others : ∀ {a}, (s.accepts a).phase ≠ .suspended → ∀ b ∈ s.mResumptions, b ≠ a ∧ b ∈ s.mResumptions :=
    fun phase b member => ⟨located.apart phase member, member⟩
  cases h with
  | @accept a absent =>
    have was := sound.accepts a
    unfold Accept.Sound at was
    rw [absent] at was
    exact located.change rfl rfl rfl rfl was.2.2.2.1.symm (Accept.reported_none rfl)
      fun b member => .inl (others (by simp [absent]) b member)
  | @requestStop a =>
    apply located.change rfl rfl rfl rfl rfl (located.reported a)
    intro b member
    by_cases same : b = a
    · subst same
      obtain ⟨phase, ec, dev, posts⟩ := located.waiting b member
      exact .inr ⟨rfl, phase, ec, dev, posts⟩
    · exact .inl ⟨same, member⟩
  | @stopEarly a _ unregistered =>
    refine located.change rfl rfl rfl rfl rfl (located.reported a) fun b member => .inl ⟨?_, member⟩
    rintro rfl
    exact absurd (unregistered.symm.trans (sound.waiting b member)) (by simp)
  | @stopWaiting a =>
    refine located.change rfl rfl rfl rfl rfl (located.reported a) fun b member => .inl ?_
    exact distinct.mem_erase_iff.mp member
  | @stopLate a _ _ gone =>
    refine located.change rfl rfl rfl rfl rfl (located.reported a) fun b member => .inl ⟨?_, member⟩
    rintro rfl
    exact gone member
  | readyTake started last => exact located.take sound (.inl started) last
  | suspendTake tested last => exact located.take sound (.inr (.inr ⟨_, tested⟩)) last
  | @unready a started =>
    exact located.change rfl rfl rfl rfl rfl (located.reported a)
      fun b member => .inl (others (by simp [started]) b member)
  | @stopTest a unready =>
    exact located.change rfl rfl rfl rfl rfl (located.reported a)
      fun b member => .inl (others (by simp [unready]) b member)
  | @refused a tested =>
    exact located.change rfl rfl rfl rfl rfl (located.reported a)
      fun b member => .inl (others (by simp [tested]) b member)
  | @register a tested =>
    obtain ⟨_, _, posts, dev, ec, _⟩ := (sound.accepts a).early (.inr (.inr ⟨_, tested⟩))
    refine located.change (a := a) (f := .register) rfl rfl rfl rfl rfl (located.reported a) fun b member => ?_
    rcases List.mem_append.mp member with old | new
    · exact .inl (others (by simp [tested]) b old)
    · exact .inr ⟨List.mem_singleton.mp new, rfl, ec, dev, posts⟩
  | @resume a ready =>
    refine located.change rfl rfl rfl rfl rfl (Accept.reported_resume _) fun b member => .inl ⟨?_, member⟩
    rintro rfl
    obtain ⟨phase, _, _, posts⟩ := located.waiting b member
    rcases ready with direct | ⟨_, posted⟩
    · exact absurd (direct.symm.trans phase) (by simp)
    · omega
  | @finish a resumed =>
    exact located.change rfl rfl rfl rfl rfl (located.reported a)
      fun b member => .inl (others (by simp [resumed]) b member)
  | store none =>
    refine ⟨located.calls, located.waiting, ?_, located.reported⟩
    have stored := located.custody.store
    unfold custodyOf at stored ⊢
    simpa using stored
  | hand first => exact located.hand sound distinct first _
  | left => cases quiet
  | shutdown => cases quiet
  | aside _ aside =>
    refine ⟨aside.shutdowns.trans located.calls, ?_, ?_, ?_⟩
    · rw [aside.accepts, aside.mResumptions]
      exact located.waiting
    · unfold custodyOf
      rw [aside.accepts, aside.devices, aside.mArrivedDevices]
      exact located.custody
    · rw [aside.accepts]
      exact located.reported
  | deregister call | post call | invalid call => exact absurd call none
  | visit now | clear now => exact absurd now stands

/-! ### The devices that were assigned -/

/-- Every device that was assigned is, or will be, returned. -/
def Kept (s : State) : Prop := ∀ a d, (s.accepts a).dev = some d → (s.accepts a).outcome = some d

theorem conserved_iff (located : Located s) : Conserved s ↔ Kept s := by
  obtain ⟨_, _, valid, reported⟩ := located
  constructor
  · intro conserved a d given
    obtain ⟨bound, apart⟩ := valid.owned_lt a d given
    obtain ⟨p, holds, _⟩ := conserved.placed d bound
    cases p with
    | queue => exact absurd holds apart
    | accept b =>
      obtain rfl := valid.exclusive a b d given ((reported b).dev_of_outcome holds)
      exact holds
  · intro kept
    refine ⟨valid.distinct, fun d bound => ?_, fun a ec dev result failed => ?_⟩
    · rcases valid.placed d bound with stored | ⟨a, given⟩
      · refine ⟨.queue, stored, fun p holds => ?_⟩
        cases p with
        | queue => rfl
        | accept b => exact absurd stored (valid.owned_lt b d ((reported b).dev_of_outcome holds)).2
      · refine ⟨.accept a, kept a d given, fun p holds => ?_⟩
        cases p with
        | queue => exact absurd holds (valid.owned_lt a d given).2
        | accept b => exact congrArg Place.accept (valid.exclusive b a d ((reported b).dev_of_outcome holds) given)
    · cases given : (s.accepts a).dev with
      | none => rfl
      | some d =>
        have answer := kept a d given
        unfold Accept.outcome at answer
        rw [result] at answer
        dsimp only at answer
        rw [if_pos failed] at answer
        cases answer

namespace Accept

/-- What a section does to an accept that has the device `d`, where `kept` says it is not stopped too late. -/
structure Keeps (d : Nat) (kept : Prop) (acc new : Accept) : Prop where
  dev : new.dev = some d
  before : new.outcome = some d → acc.outcome = some d
  after : kept → acc.outcome = some d → new.outcome = some d

theorem Keeps.same {kept : Prop} (dev : new.dev = some d) (outcome : new.outcome = acc.outcome) :
    Keeps d kept acc new :=
  ⟨dev, fun answer => outcome ▸ answer, fun _ answer => outcome ▸ answer⟩

theorem outcome_resume (waits : acc.result = none) : acc.resume.outcome = acc.outcome := by
  unfold outcome resume
  rw [waits]
  dsimp only
  split <;> simp_all

theorem Sound.keeps_cancel (sound : acc.Sound) (registered : acc.registered = true) (given : acc.dev = some d) :
    Keeps d (acc.phase = .suspended → acc.dev = none) acc acc.cancel := by
  refine ⟨given, fun answer => ?_, fun kept answer => ?_⟩
  all_goals cases result : acc.result with
    | none => ?_
    | some r =>
      have same : acc.cancel.outcome = acc.outcome := by
        unfold outcome Accept.cancel
        rw [result]
      exact same ▸ answer
  · have failed : acc.cancel.outcome = none := by
      unfold outcome Accept.cancel
      rw [result]
      rfl
    rw [failed] at answer
    cases answer
  · obtain ⟨_, ⟨phase, _⟩ | ⟨_, done⟩⟩ := (sound_registered _ registered).mp sound
    · exact absurd ((kept phase).symm.trans given) (by simp)
    · rw [result] at done
      cases done

end Accept

theorem Outcome.keeps (h : Outcome s e s') (sound : Sound s) (located : Located s) (quiet : e.quiet = true)
    (given : (s.accepts b).dev = some d) : Accept.Keeps d (KeepsDevice s e) (s.accepts b) (s'.accepts b) := by
  have here : ∀ {a f}, ((s.accepts a).dev = some d → Accept.Keeps d (KeepsDevice s e) (s.accepts a) (f (s.accepts a))) →
      Accept.Keeps d (KeepsDevice s e) (s.accepts b) ((s.onAccept a f).accepts b) := by
    intro a f local'
    rw [State.onAccept_accepts]
    split
    case isTrue same => exact same ▸ local' (same ▸ given)
    case isFalse => exact .same given rfl
  have early : ∀ {a P}, (s.accepts a).Early → (s.accepts a).dev = some d → P := fun early given =>
    absurd (((sound.accepts _).early early).2.2.2.1.symm.trans given) (by simp)
  have none : ∀ {k : Nat} {c}, s.shutdowns[k]? ≠ some c := by simp [located.calls]
  cases h with
  | @accept a absent =>
    have was := sound.accepts a
    unfold Accept.Sound at was
    rw [absent] at was
    exact here fun given => absurd (was.2.2.2.1.symm.trans given) (by simp)
  | readyTake started => exact here (early (.inl started))
  | suspendTake tested | refused tested => exact here (early (.inr (.inr ⟨_, tested⟩)))
  | stopWaiting _ registered | stopLate _ registered =>
    exact here fun given => (sound.accepts _).keeps_cancel registered given
  | @resume a ready =>
    refine here fun given => .same given (Accept.outcome_resume ?_)
    have was := sound.accepts a
    unfold Accept.Sound at was
    rcases ready with phase | ⟨phase, _⟩
    · rw [phase] at was
      exact was.2.2.2.1
    · rw [phase] at was
      exact was.2.2
  | hand first =>
    have pending := located.waiting _ (by rw [first]; exact List.mem_cons_self)
    exact here fun given => absurd (pending.dev.symm.trans given) (by simp)
  | aside _ aside => exact .same (aside.accepts ▸ given) (by rw [aside.accepts])
  | left | shutdown => cases quiet
  | post call => exact absurd call none
  | store | deregister | visit | clear | invalid => exact .same given rfl
  | _ => exact here fun given => .same given rfl

theorem Accept.outcome_pending (ec : acc.ec = {}) (result : acc.result = none) : acc.outcome = acc.dev := by
  unfold outcome
  rw [result]
  dsimp only
  rw [ec, if_neg (by simp)]

theorem Outcome.assigns (h : Outcome s e s') (sound : Sound s) (located : Located s) (quiet : e.quiet = true)
    (none : (s.accepts b).dev = none) (given : (s'.accepts b).dev = some d) : (s'.accepts b).outcome = some d := by
  have here : ∀ {a f}, ((s.accepts a).dev = Option.none → (f (s.accepts a)).dev = some d →
      (f (s.accepts a)).outcome = some d) →
      ((s.onAccept a f).accepts b).dev = some d → ((s.onAccept a f).accepts b).outcome = some d := by
    intro a f local' given
    rw [State.onAccept_accepts] at given ⊢
    split at given
    case isTrue same =>
      rw [if_pos same]
      exact local' (same ▸ none) given
    case isFalse => cases none.symm.trans given
  have take : ∀ {a dev}, (s.accepts a).Early → ((s.onAccept a (Accept.take dev)).accepts b).dev = some d →
      ((s.onAccept a (Accept.take dev)).accepts b).outcome = some d := by
    intro a dev early given
    obtain ⟨_, _, _, _, ec, result⟩ := (sound.accepts a).early early
    refine here (fun _ given => ?_) given
    rw [← given]
    exact Accept.outcome_pending ec result
  cases h with
  | readyTake started => exact take (.inl started) given
  | suspendTake tested => exact take (.inr (.inr ⟨_, tested⟩)) given
  | @hand a desc rest first =>
    have pending := located.waiting a (by rw [first]; exact List.mem_cons_self)
    have was := sound.accepts a
    unfold Accept.Sound at was
    rw [pending.phase] at was
    refine here (fun _ given => ?_) given
    rw [← given]
    exact Accept.outcome_pending pending.ec was.2.2
  | aside _ aside => cases none.symm.trans (aside.accepts ▸ given)
  | accept | requestStop | stopEarly | stopWaiting | stopLate | unready | stopTest | refused | register | resume
  | finish | post =>
    refine here (fun none given => ?_) given
    first
      | cases none.symm.trans given
      | cases given
  | store | left | shutdown | deregister | visit | clear | invalid => cases none.symm.trans given

theorem kept_step (sound : Sound s) (located : Located s) (quiet : e.quiet = true) (h : Outcome s e s') :
    (KeepsDevice s e → Kept s → Kept s') ∧ (Kept s' → Kept s) := by
  constructor
  · intro keeps kept a d given
    cases before : (s.accepts a).dev with
    | none => exact h.assigns sound located quiet before given
    | some d' =>
      have change := h.keeps sound located quiet before
      obtain rfl := Option.some.inj (change.dev.symm.trans given)
      exact change.after keeps (kept a d' before)
  · intro kept a d given
    have change := h.keeps sound located quiet given
    exact change.before (kept a d change.dev)

/-- A stop callback between the assignment and the coroutine loses the device. -/
theorem not_kept (sound : Sound s) (late : ¬ KeepsDevice s e) (h : Outcome s e s') : ¬ Kept s' := by
  intro kept
  unfold KeepsDevice at late
  split at late
  · rename_i a
    simp only [Classical.not_imp] at late
    obtain ⟨suspended, given⟩ := late
    obtain ⟨d, given⟩ := Option.ne_none_iff_exists'.mp given
    have was := sound.accepts a
    unfold Accept.Sound at was
    rw [suspended] at was
    have answer : (s'.accepts a) = (s.accepts a).cancel := by
      cases h with
      | stopEarly _ unregistered => exact absurd (unregistered.symm.trans was.1) (by simp)
      | stopWaiting | stopLate => exact State.onAccept_same
      | aside registration => cases registration
      | visit now | clear now => cases now
    have lost := kept a d (by rw [answer]; exact given)
    rw [answer] at lost
    unfold Accept.outcome Accept.cancel at lost
    rw [was.2.2] at lost
    cases lost
  · exact late trivial

theorem located_run (h : machine.run {} es = some s) (quiet : ∀ e ∈ es, e.quiet = true) :
    Sound s ∧ Ordered s ∧ Located s := by
  induction es using List.reverseRecOn generalizing s with
  | nil =>
    obtain rfl := Option.some.inj h
    exact ⟨sound_initial, ordered_initial, located_initial⟩
  | append_singleton es e ih =>
    obtain ⟨u, before, last⟩ := Machine.run_concat.mp h
    obtain ⟨sound, ordered, located⟩ := ih before fun e member => quiet e (by simp [member])
    have outcome := (step_outcome last).1
    exact ⟨sound_step sound outcome, ordered_step sound ordered outcome,
      located_step sound ordered located (quiet e (by simp)) outcome⟩

/-- In a run in which no device leaves and nothing is shut down, the devices are conserved exactly when no accept is
stopped between the assignment of a device and its coroutine. -/
theorem conserved_run_iff (h : machine.run {} es = some s) (quiet : ∀ e ∈ es, e.quiet = true) :
    Conserved s ↔ machine.Meets KeepsDevice {} es := by
  rw [conserved_iff (located_run h quiet).2.2]
  induction es using List.reverseRecOn generalizing s with
  | nil =>
    obtain rfl := Option.some.inj h
    exact iff_of_true (fun a d given => by cases given) Machine.meets_nil
  | append_singleton es e ih =>
    obtain ⟨u, before, last⟩ := Machine.run_concat.mp h
    have earlier : ∀ e ∈ es, e.quiet = true := fun e member => quiet e (by simp [member])
    obtain ⟨sound, _, located⟩ := located_run before earlier
    have outcome := (step_outcome last).1
    obtain ⟨forward, backward⟩ := kept_step sound located (quiet e (by simp)) outcome
    constructor
    · intro kept
      apply Machine.meets_concat ((ih before earlier).mp (backward kept))
      intro t reached
      obtain rfl := Option.some.inj (reached.symm.trans before)
      by_contra late
      exact not_kept sound late outcome kept
    · intro meets
      exact forward (meets.last before) ((ih before earlier).mpr (meets.of_prefix (List.prefix_append _ _)))

theorem conserved_run_iff_handed : ∃ s,
    machine.run {} ([.listen 0] ++ waits 0 ++ [.arrived ⟨1, 2, 0⟩, .awaitResume 0]) = some s ∧
    (s.accepts 0).result = some ({}, some 0) ∧ Conserved s := by
  have run : machine.run {} ([.listen 0] ++ waits 0 ++ [.arrived ⟨1, 2, 0⟩, .awaitResume 0]) = some _ := rfl
  refine ⟨_, run, rfl, (conserved_run_iff run (by decide)).mpr (Machine.meets_of_forall ?_)⟩
  simp [waits, KeepsDevice]

/-- The stop callback runs between the assignment and the coroutine: the accept is cancelled and the device lost. -/
theorem device_lost : ∃ s,
    machine.run {}
      ([.listen 0] ++ waits 0 ++ [.arrived ⟨1, 2, 0⟩, .requestStop 0, .stopFn 0, .awaitResume 0]) = some s ∧
    s.devices.length = 1 ∧ s.mArrivedDevices = [] ∧ (s.accepts 0).dev = some 0 ∧
    (s.accepts 0).result = some (makeErrorCode .operationCanceled, none) ∧ ¬ Conserved s := by
  have reached : ∃ s, machine.run {}
        ([.listen 0] ++ waits 0 ++ [.arrived ⟨1, 2, 0⟩, .requestStop 0, .stopFn 0, .awaitResume 0]) = some s ∧
      s.devices.length = 1 ∧ s.mArrivedDevices = [] ∧ (s.accepts 0).dev = some 0 ∧
      (s.accepts 0).result = some (makeErrorCode .operationCanceled, none) := ⟨_, rfl, rfl, rfl, rfl, rfl⟩
  obtain ⟨s, h, arrived, queue, given, result⟩ := reached
  refine ⟨s, h, arrived, queue, given, result, fun conserved => ?_⟩
  cases given.symm.trans (conserved.canceled 0 _ _ result rfl)

end CoUsb.Hotplug

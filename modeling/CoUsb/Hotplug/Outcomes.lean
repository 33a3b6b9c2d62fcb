import CoUsb.Hotplug.DeviceAcceptor

/-!
# What one section of the acceptor can do

`Outcome` lists the exits of the sections, one constructor for each; the invariants of the
acceptor are proved by cases on it.
-/

namespace CoUsb.Hotplug

namespace State

variable {s : State} {a b k : Nat} {f : Accept → Accept} {waiting : List Nat} {c : Shutdown}

@[simp] theorem onAccept_same : (s.onAccept a f).accepts a = f (s.accepts a) := Function.update_self ..

@[simp] theorem onAccept_other (other : b ≠ a) : (s.onAccept a f).accepts b = s.accepts b :=
  Function.update_of_ne other ..

theorem onAccept_accepts : (s.onAccept a f).accepts b = if b = a then f (s.accepts a) else s.accepts b :=
  Function.update_apply ..

@[simp] theorem onAccept_mResumptions : (s.onAccept a f).mResumptions = s.mResumptions := rfl
@[simp] theorem onAccept_edits : (s.onAccept a f).edits = s.edits := rfl
@[simp] theorem onAccept_mArrivedDevices : (s.onAccept a f).mArrivedDevices = s.mArrivedDevices := rfl
@[simp] theorem onAccept_shutdowns : (s.onAccept a f).shutdowns = s.shutdowns := rfl
@[simp] theorem onAccept_undefined : (s.onAccept a f).undefined = s.undefined := rfl
@[simp] theorem onAccept_devices : (s.onAccept a f).devices = s.devices := rfl
@[simp] theorem onAccept_queued : (s.onAccept a f).queued = s.queued := rfl

@[simp] theorem onFrame_accepts : (s.onFrame a f).accepts = (s.onAccept a f).accepts := rfl
@[simp] theorem onFrame_mResumptions : (s.onFrame a f).mResumptions = s.mResumptions := rfl
@[simp] theorem onFrame_edits : (s.onFrame a f).edits = s.edits := rfl
@[simp] theorem onFrame_mArrivedDevices : (s.onFrame a f).mArrivedDevices = s.mArrivedDevices := rfl
@[simp] theorem onFrame_shutdowns : (s.onFrame a f).shutdowns = s.shutdowns := rfl
@[simp] theorem onFrame_devices : (s.onFrame a f).devices = s.devices := rfl
@[simp] theorem onFrame_queued : (s.onFrame a f).queued = s.queued := rfl

@[simp] theorem onFrame_undefined :
    (s.onFrame a f).undefined = (s.undefined || decide ((s.accepts a).phase = .finished)) := rfl

@[simp] theorem edit_accepts : (s.edit waiting).accepts = s.accepts := rfl
@[simp] theorem edit_mResumptions : (s.edit waiting).mResumptions = waiting := rfl
@[simp] theorem edit_edits : (s.edit waiting).edits = s.edits + 1 := rfl
@[simp] theorem edit_mArrivedDevices : (s.edit waiting).mArrivedDevices = s.mArrivedDevices := rfl
@[simp] theorem edit_shutdowns : (s.edit waiting).shutdowns = s.shutdowns := rfl
@[simp] theorem edit_undefined : (s.edit waiting).undefined = s.undefined := rfl
@[simp] theorem edit_devices : (s.edit waiting).devices = s.devices := rfl
@[simp] theorem edit_queued : (s.edit waiting).queued = s.queued := rfl

@[simp] theorem onShutdown_accepts : (s.onShutdown k c).accepts = s.accepts := rfl
@[simp] theorem onShutdown_mResumptions : (s.onShutdown k c).mResumptions = s.mResumptions := rfl
@[simp] theorem onShutdown_edits : (s.onShutdown k c).edits = s.edits := rfl
@[simp] theorem onShutdown_mArrivedDevices : (s.onShutdown k c).mArrivedDevices = s.mArrivedDevices := rfl
@[simp] theorem onShutdown_shutdowns : (s.onShutdown k c).shutdowns = s.shutdowns.set k c := rfl
@[simp] theorem onShutdown_undefined : (s.onShutdown k c).undefined = s.undefined := rfl
@[simp] theorem onShutdown_devices : (s.onShutdown k c).devices = s.devices := rfl
@[simp] theorem onShutdown_queued : (s.onShutdown k c).queued = s.queued := rfl

end State

/-! ### What a section does to an accept -/

namespace Accept

def request (acc : Accept) : Accept := { acc with requested := true }

def begin (acc : Accept) : Accept :=
  { phase := .started, requested := acc.requested, stopped := acc.requested }

def stop (acc : Accept) : Accept := { acc with stopped := true }

/-- `stop_fn` where `*res` was assigned. -/
def cancel (acc : Accept) : Accept :=
  { acc with stopped := true, ec := makeErrorCode .operationCanceled, posts := acc.posts + 1 }

def take (dev : Nat) (acc : Accept) : Accept := { acc with phase := .direct, direct := true, dev := some dev }

def move (phase : Phase) (acc : Accept) : Accept := { acc with phase }

def test (acc : Accept) : Accept := { acc with phase := .tested acc.requested }

def refuse (acc : Accept) : Accept :=
  { acc with phase := .direct, direct := true, ec := makeErrorCode .operationCanceled }

def register (acc : Accept) : Accept := { acc with phase := .suspended, registered := true }

def resume (acc : Accept) : Accept :=
  { acc with phase := .resumed, result := some (if acc.ec.isError then (acc.ec, none) else ({}, acc.dev)) }

def receive (dev : Nat) (acc : Accept) : Accept := { acc with dev := some dev, posts := acc.posts + 1 }

/-- The post of `shutdown`. -/
def dismiss (acc : Accept) : Accept :=
  { acc with ec := makeErrorCode .operationCanceled, posts := acc.posts + 1 }

end Accept

/-- The operations on the registration with libusb. -/
def Event.registration : Event → Bool
  | .bindEc _ | .bind _ | .listen _ | .close => true
  | _ => false

/-- A step that concerns the registration with libusb only. -/
structure Aside (s s' : State) : Prop where
  accepts : s'.accepts = s.accepts
  mResumptions : s'.mResumptions = s.mResumptions
  edits : s'.edits = s.edits
  mArrivedDevices : s'.mArrivedDevices = s.mArrivedDevices
  shutdowns : s'.shutdowns = s.shutdowns
  undefined : s'.undefined = s.undefined
  devices : s'.devices = s.devices
  queued : s'.queued = s.queued

/-- The stop callback of accept `a` may run. -/
def Stoppable (s : State) (a : Nat) : Prop :=
  (s.accepts a).requested = true ∧ (s.accepts a).hasCallback = true ∧ (s.accepts a).stopped = false

/-- The hotplug callback or `shutdown` is about to write to the frame of an accept that has finished. -/
def Dangles (s : State) : Event → Prop
  | .arrived _ => ∃ a rest, s.mResumptions = a :: rest ∧ (s.accepts a).phase = .finished
  | .post k => ∃ i res edits, s.shutdowns[k]? = some (.unlocked i res edits) ∧ (s.accepts res).phase = .finished
  | _ => False

instance (s : State) : ∀ e, Decidable (Dangles s e)
  | .arrived _ =>
    match first : s.mResumptions with
    | [] => isFalse (by simp [Dangles, first])
    | a :: _ => decidable_of_iff ((s.accepts a).phase = .finished) (by simp [Dangles, first])
  | .post k =>
    match call : s.shutdowns[k]? with
    | some (.unlocked _ res _) => decidable_of_iff ((s.accepts res).phase = .finished) (by simp [Dangles, call])
    | none | some (.exchanged _) | some .deregistered | some (.posted _ _) | some .returned =>
      isFalse (by simp [Dangles, call])
  | .accept _ | .requestStop _ | .stopFn _ | .awaitReady _ | .stopTest _ | .awaitSuspend _ | .awaitResume _ | .finish _
  | .left _ | .bindEc _ | .bind _ | .listen _ | .close | .shutdown | .deregister _ | .walk _ | .relock _ => isFalse id

/-- With `e` the loop of call `k` comes to index `i`. -/
inductive Stands (s : State) : Event → Nat → Nat → Prop where
  | walk {k : Nat} (call : s.shutdowns[k]? = some .deregistered) : Stands s (.walk k) k 0
  | relock {k i : Nat} (call : s.shutdowns[k]? = some (.posted i s.edits)) : Stands s (.relock k) k (i + 1)

inductive Outcome (s : State) : Event → State → Prop where
  | accept {a : Nat} (absent : (s.accepts a).phase = .absent) : Outcome s (.accept a) (s.onAccept a .begin)
  | requestStop {a : Nat} : Outcome s (.requestStop a) (s.onAccept a .request)
  | stopEarly {a : Nat} (stoppable : Stoppable s a) (unregistered : (s.accepts a).registered = false) :
    Outcome s (.stopFn a) (s.onAccept a .stop)
  | stopWaiting {a : Nat} (stoppable : Stoppable s a) (registered : (s.accepts a).registered = true)
      (waiting : a ∈ s.mResumptions) :
    Outcome s (.stopFn a) ((s.onAccept a .cancel).edit (s.mResumptions.erase a))
  | stopLate {a : Nat} (stoppable : Stoppable s a) (registered : (s.accepts a).registered = true)
      (resolved : a ∉ s.mResumptions) :
    Outcome s (.stopFn a) (s.onAccept a .cancel)
  | readyTake {a : Nat} (started : (s.accepts a).phase = .started) {info : DevInfo} {devices : List DevInfo}
    (last : s.mArrivedDevices = devices ++ [info]) :
    Outcome s (.awaitReady a) { s.onAccept a (Accept.take info.dev) with mArrivedDevices := devices }
  | unready {a : Nat} (started : (s.accepts a).phase = .started) (none : s.mArrivedDevices = []) :
    Outcome s (.awaitReady a) (s.onAccept a (Accept.move .unready))
  | stopTest {a : Nat} (unready : (s.accepts a).phase = .unready) :
    Outcome s (.stopTest a) (s.onAccept a .test)
  | refused {a : Nat} (tested : (s.accepts a).phase = .tested true) : Outcome s (.awaitSuspend a) (s.onAccept a .refuse)
  | suspendTake {a : Nat} (tested : (s.accepts a).phase = .tested false) {info : DevInfo} {devices : List DevInfo}
    (last : s.mArrivedDevices = devices ++ [info]) :
    Outcome s (.awaitSuspend a) { s.onAccept a (Accept.take info.dev) with mArrivedDevices := devices }
  | register {a : Nat} (tested : (s.accepts a).phase = .tested false) (none : s.mArrivedDevices = []) :
    Outcome s (.awaitSuspend a)
      { (s.onAccept a .register).edit (s.mResumptions ++ [a]) with queued := s.queued ++ [a] }
  | resume {a : Nat}
      (ready : (s.accepts a).phase = .direct ∨ (s.accepts a).phase = .suspended ∧ 0 < (s.accepts a).posts) :
    Outcome s (.awaitResume a) (s.onAccept a .resume)
  | finish {a : Nat} (resumed : (s.accepts a).phase = .resumed) :
      Outcome s (.finish a) (s.onAccept a (Accept.move .finished))
  | store {desc : DeviceDescriptor} (none : s.mResumptions = []) :
    Outcome s (.arrived desc) { s with
      devices := s.devices ++ [desc]
      mArrivedDevices := s.mArrivedDevices ++ [⟨tripletFromDescriptor desc, s.devices.length⟩] }
  | hand {a : Nat} {desc : DeviceDescriptor} {rest : List Nat} (first : s.mResumptions = a :: rest) :
    Outcome s (.arrived desc)
      { (s.onFrame a (Accept.receive s.devices.length)).edit rest with devices := s.devices ++ [desc] }
  | left {dev : Nat} {desc : DeviceDescriptor} (known : s.devices[dev]? = some desc) (present : dev ∉ s.gone) :
    Outcome s (.left dev) (left s dev desc)
  | aside {e : Event} {s' : State} (registration : e.registration = true) (aside : Aside s s') : Outcome s e s'
  | shutdown : Outcome s .shutdown (shutdown s)
  | deregister {k handle : Nat} (call : s.shutdowns[k]? = some (.exchanged handle)) :
    Outcome s (.deregister k) ((deregisterCallback s handle).onShutdown k .deregistered)
  | visit {e : Event} {k i res : Nat} (stands : Stands s e k i) (here : s.mResumptions[i]? = some res) :
    Outcome s e (s.onShutdown k (.unlocked i res s.edits))
  | clear {e : Event} {k i : Nat} (stands : Stands s e k i) (ended : s.mResumptions[i]? = none) :
    Outcome s e { (s.edit []).onShutdown k .returned with mArrivedDevices := [] }
  | post {k i res edits : Nat} (call : s.shutdowns[k]? = some (.unlocked i res edits)) :
    Outcome s (.post k) ((s.onFrame res .dismiss).onShutdown k (.posted i edits))
  | invalid {k i edits : Nat} (call : s.shutdowns[k]? = some (.posted i edits)) (changed : edits ≠ s.edits) :
    Outcome s (.relock k) { s with undefined := true }

variable {s s' : State} {e : Event} {a : Nat}

theorem stopFn_outcome (stoppable : Stoppable s a) : Outcome s (.stopFn a) (stopFn s a) := by
  unfold stopFn
  simp only [State.onAccept_same]
  cases registered : (s.accepts a).registered with
  | false => exact .stopEarly stoppable registered
  | true =>
    have twice : (s.onAccept a fun acc => { acc with stopped := true }).onAccept a
        (fun acc => { acc with ec := makeErrorCode .operationCanceled }.post) = s.onAccept a .cancel := by
      simp [State.onAccept, Accept.post, Accept.cancel]
    rw [if_pos rfl, twice]
    split
    case isTrue waiting => exact .stopWaiting stoppable registered waiting
    case isFalse resolved => exact .stopLate stoppable registered resolved

theorem accept_outcome (absent : (s.accepts a).phase = .absent) : Outcome s (.accept a) (accept s a) := by
  have same : accept s a = s.onAccept a .begin := by
    unfold accept stopFn
    cases requested : (s.accepts a).requested <;> simp [requested, State.onAccept, Accept.begin]
  rw [same]
  exact .accept absent

theorem visit_outcome {k i : Nat} (stands : Stands s e k i) : Outcome s e (visit s k i) := by
  unfold visit
  split
  case h_1 here => exact .visit stands here
  case h_2 ended => exact .clear stands ended

theorem last_eq {devices : List DevInfo} {info : DevInfo} (last : devices.getLast? = some info) :
    devices = devices.dropLast ++ [info] := by
  obtain ⟨rest, rfl⟩ := List.getLast?_eq_some_iff.mp last
  rw [List.dropLast_concat]

theorem awaitReady_outcome (started : (s.accepts a).phase = .started) : Outcome s (.awaitReady a) (awaitReady s a) := by
  unfold awaitReady
  split
  case h_1 info last => exact .readyTake started (last_eq last)
  case h_2 none => exact .unready started (List.getLast?_eq_none_iff.mp none)

theorem awaitSuspend_outcome {stopRequested : Bool} (tested : (s.accepts a).phase = .tested stopRequested) :
    Outcome s (.awaitSuspend a) (awaitSuspend s a stopRequested) := by
  unfold awaitSuspend
  cases stopRequested with
  | true => exact .refused tested
  | false =>
    rw [if_neg Bool.false_ne_true]
    split
    case h_1 info last => exact .suspendTake tested (last_eq last)
    case h_2 none => exact .register tested (List.getLast?_eq_none_iff.mp none)

theorem arrived_outcome (desc : DeviceDescriptor) : Outcome s (.arrived desc) (arrived s desc) := by
  unfold arrived
  dsimp only
  split
  case h_1 none => exact .store none
  case h_2 first => exact .hand first

theorem aside_listen (s : State) (r : Int) : Aside s (listen s r) := by
  unfold listen
  split
  · exact ⟨rfl, rfl, rfl, rfl, rfl, rfl, rfl, rfl⟩
  · split <;> exact ⟨rfl, rfl, rfl, rfl, rfl, rfl, rfl, rfl⟩

theorem aside_close (s : State) : Aside s (close s) := by
  unfold close
  split <;> exact ⟨rfl, rfl, rfl, rfl, rfl, rfl, rfl, rfl⟩

theorem aside_bind (s : State) (triplet : DeviceTriplet) : Aside s (bind s triplet) := by
  unfold bind
  split <;> exact ⟨rfl, rfl, rfl, rfl, rfl, rfl, rfl, rfl⟩

theorem next_outcome (h : next s e = some s') : Outcome s e s' := by
  cases e with
  | accept a =>
    simp only [next, Option.ite_none_right_eq_some] at h
    exact Option.some.inj h.2 ▸ accept_outcome h.1
  | requestStop a => exact Option.some.inj h ▸ .requestStop
  | stopFn a =>
    simp only [next, Option.ite_none_right_eq_some, Bool.and_eq_true, Bool.not_eq_true'] at h
    obtain ⟨⟨⟨requested, callback⟩, stopped⟩, same⟩ := h
    exact Option.some.inj same ▸ stopFn_outcome ⟨requested, callback, stopped⟩
  | awaitReady a =>
    simp only [next, Option.ite_none_right_eq_some] at h
    exact Option.some.inj h.2 ▸ awaitReady_outcome h.1
  | stopTest a =>
    simp only [next, Option.ite_none_right_eq_some] at h
    exact Option.some.inj h.2 ▸ .stopTest h.1
  | awaitSuspend a =>
    simp only [next] at h
    split at h
    case h_1 tested => exact Option.some.inj h ▸ awaitSuspend_outcome tested
    case h_2 => cases h
  | awaitResume a =>
    simp only [next] at h
    split at h
    case h_1 direct => exact Option.some.inj h ▸ .resume (.inl direct)
    case h_2 suspended =>
      rw [Option.ite_none_right_eq_some] at h
      exact Option.some.inj h.2 ▸ .resume (.inr ⟨suspended, h.1⟩)
    case h_3 => cases h
  | finish a =>
    simp only [next, Option.ite_none_right_eq_some] at h
    exact Option.some.inj h.2 ▸ .finish h.1
  | arrived desc => exact Option.some.inj h ▸ arrived_outcome desc
  | left dev =>
    simp only [next] at h
    split at h
    case h_1 known =>
      rw [Option.ite_none_left_eq_some] at h
      exact Option.some.inj h.2 ▸ .left known h.1
    case h_2 => cases h
  | bindEc triplet => exact Option.some.inj h ▸ .aside rfl ⟨rfl, rfl, rfl, rfl, rfl, rfl, rfl, rfl⟩
  | bind triplet => exact Option.some.inj h ▸ .aside rfl (aside_bind s triplet)
  | listen r => exact Option.some.inj h ▸ .aside rfl (aside_listen s r)
  | close => exact Option.some.inj h ▸ .aside rfl (aside_close s)
  | shutdown => exact Option.some.inj h ▸ .shutdown
  | deregister k =>
    simp only [next] at h
    split at h
    case h_1 call => exact Option.some.inj h ▸ .deregister call
    case h_2 => cases h
  | walk k =>
    simp only [next, Option.ite_none_right_eq_some] at h
    exact Option.some.inj h.2 ▸ visit_outcome (.walk h.1)
  | post k =>
    simp only [next] at h
    split at h
    case h_1 call => exact Option.some.inj h ▸ .post call
    case h_2 => cases h
  | relock k =>
    simp only [next] at h
    split at h
    case h_1 i edits call =>
      obtain rfl := Option.some.inj h
      unfold relock
      split
      case isTrue valid => exact visit_outcome (.relock (valid ▸ call))
      case isFalse changed => exact .invalid call changed
    case h_2 => cases h

theorem step_next (h : machine.step s e = some s') : next s e = some s' ∧ s.undefined = false := by
  have h : (if s.undefined then none else next s e) = some s' := h
  rw [Option.ite_none_left_eq_some] at h
  exact ⟨h.2, by simpa using h.1⟩

theorem step_outcome (h : machine.step s e = some s') : Outcome s e s' ∧ s.undefined = false :=
  ⟨next_outcome (step_next h).1, (step_next h).2⟩

end CoUsb.Hotplug

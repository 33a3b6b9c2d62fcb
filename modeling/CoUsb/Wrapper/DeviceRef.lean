import CoUsb.Lib.Account
import CoUsb.Lib.Machine

/-!
# `device_ref`

Any number of references to libusb devices, and the vector of the acceptor that copies, assigns and destroys
them. The type has no move operations.
-/

namespace CoUsb

/-- A device is named by its pointer. -/
structure DeviceRef where
  mDev : Option Nat := none
  deriving DecidableEq, Repr

namespace DeviceRef

inductive Call where
  | refDevice (dev : Nat)
  | unrefDevice (dev : Nat)
  deriving DecidableEq, Repr

/-! ### The operations -/

def ofDevice (dev : Nat) : DeviceRef × List Call := (⟨some dev⟩, [.refDevice dev])

def refs (r : DeviceRef) : List Call := r.mDev.toList.map .refDevice

def copy (other : DeviceRef) : DeviceRef × List Call := (⟨other.mDev⟩, refs ⟨other.mDev⟩)

/-- `operator=(device_ref const &)`, which does not look at what the reference held. -/
def assign (_this other : DeviceRef) : DeviceRef × List Call := (⟨other.mDev⟩, refs ⟨other.mDev⟩)

def destroy (r : DeviceRef) : List Call := r.mDev.toList.map .unrefDevice

/-- The reference afterwards and the device given out. -/
def release (r : DeviceRef) : DeviceRef × Option Nat := (⟨none⟩, r.mDev)

/-! ### The vector -/

/-- `emplace_back(triplet, device_ref{dev})`: on reallocation the elements are copied over and destroyed. -/
def emplaceBack (elements : List DeviceRef) (dev : Nat) (reallocates : Bool) : List DeviceRef × List Call :=
  let (temporary, constructed) := ofDevice dev
  let (element, copied) := temporary.copy
  let kept := if reallocates then elements.map fun r => r.copy.1 else elements
  let moved := if reallocates then elements.flatMap fun r => r.copy.2 ++ r.destroy else []
  (kept ++ [element], constructed ++ copied ++ moved ++ temporary.destroy)

/-- Each element is assigned the one behind it, the last one is destroyed. -/
def shiftDown : List DeviceRef → List DeviceRef × List Call
  | [] => ([], [])
  | [last] => ([], last.destroy)
  | this :: other :: rest =>
    let (assigned, calls) := this.assign other
    let (shifted, more) := shiftDown (other :: rest)
    (assigned :: shifted, calls ++ more)

def erase (elements : List DeviceRef) (position : Nat) : List DeviceRef × List Call :=
  let (shifted, calls) := shiftDown (elements.drop position)
  (elements.take position ++ shifted, calls)

def popBack (elements : List DeviceRef) : List DeviceRef × List Call :=
  (elements.dropLast, (elements.getLast?.map destroy).getD [])

def clear (elements : List DeviceRef) : List DeviceRef × List Call := ([], elements.flatMap destroy)

/-! ### The machine -/

structure State where
  /-- The references constructed so far, `none` once destroyed. -/
  refs : List (Option DeviceRef) := []
  /-- The references in `m_arrived_devices`. -/
  elements : List DeviceRef := []
  /-- The devices `release` gave out. -/
  given : List Nat := []
  log : List Call := []

inductive Event where
  | construct
  | fromDevice (dev : Nat)
  | copy (other : Nat)
  | assign (a other : Nat)
  | release (a : Nat)
  | destroy (a : Nat)
  | emplaceBack (dev : Nat) (reallocates : Bool)
  /-- A reference is assigned the element at a position. -/
  | assignElement (a position : Nat)
  | erase (position : Nat)
  | popBack
  | clear
  deriving DecidableEq, Repr

namespace State

def live (s : State) (a : Nat) : Option DeviceRef := (s.refs[a]?).join

def add (s : State) (r : DeviceRef × List Call) : State := { s with refs := s.refs ++ [some r.1], log := s.log ++ r.2 }

def put (s : State) (a : Nat) (r : Option DeviceRef) (calls : List Call) : State :=
  { s with refs := s.refs.set a r, log := s.log ++ calls }

def fill (s : State) (r : List DeviceRef × List Call) : State := { s with elements := r.1, log := s.log ++ r.2 }

end State

def step (s : State) : Event → Option State
  | .construct => some (s.add ({}, []))
  | .fromDevice dev => some (s.add (ofDevice dev))
  | .copy b => do
    let other ← s.live b
    some (s.add other.copy)
  | .assign a b => do
    let this ← s.live a
    let other ← s.live b
    let (assigned, calls) := this.assign other
    some (s.put a assigned calls)
  | .release a => do
    let this ← s.live a
    let (released, dev) := this.release
    some { s.put a released [] with given := s.given ++ dev.toList }
  | .destroy a => do
    let this ← s.live a
    some (s.put a none this.destroy)
  | .emplaceBack dev reallocates => some (s.fill (emplaceBack s.elements dev reallocates))
  | .assignElement a position => do
    let this ← s.live a
    let other ← s.elements[position]?
    let (assigned, calls) := this.assign other
    some (s.put a assigned calls)
  | .erase position => if position < s.elements.length then some (s.fill (erase s.elements position)) else none
  | .popBack => if s.elements = [] then none else some (s.fill (popBack s.elements))
  | .clear => some (s.fill (clear s.elements))

def machine : Machine State Event := ⟨step⟩

/-! ### The law -/

/-- The live references that hold `dev`, in the vector or not. -/
def references (s : State) (dev : Nat) : Nat :=
  (s.refs.countP fun r => r.bind mDev == some dev) + s.elements.countP fun r => r.mDev == some dev

/-- A device was referenced once more for each reference that holds it, and each time it was given out, than it was
unreferenced. -/
def Exact (s : State) : Prop :=
  ∀ dev, s.log.count (.refDevice dev) = s.log.count (.unrefDevice dev) + (references s dev + s.given.count dev)

/-- No reference that holds a device is assigned to, in particular no element but the last is erased. -/
def OntoEmpty (s : State) : Event → Prop
  | .assign a _ | .assignElement a _ => ∀ this, s.live a = some this → this.mDev = none
  | .erase position => position + 1 = s.elements.length
  | _ => True

instance (s : State) : ∀ e, Decidable (OntoEmpty s e)
  | .assign a _ | .assignElement a _ => inferInstanceAs (Decidable (∀ this ∈ s.live a, this.mDev = none))
  | .erase _ => inferInstanceAs (Decidable (_ = _))
  | .construct | .fromDevice _ | .copy _ | .release _ | .destroy _ | .emplaceBack _ _ | .popBack | .clear =>
    isTrue trivial

/-! ### The account -/

namespace Call

def acquires : Call → Option Nat
  | .refDevice dev => some dev
  | .unrefDevice _ => none

def releases : Call → Option Nat
  | .refDevice _ => none
  | .unrefDevice dev => some dev

end Call

def target (r : Option DeviceRef) : Option Nat := r.bind mDev

def account (s : State) : Account Nat :=
  ⟨s.log.filterMap Call.acquires, s.log.filterMap Call.releases,
    s.refs.filterMap target ++ (s.elements.filterMap mDev ++ s.given)⟩

variable {s s' : State} {e : Event} {es : List Event} {r this other : DeviceRef} {a : Nat}
  {elements rest : List DeviceRef}

@[simp] theorem acquires_refs (r : DeviceRef) : r.refs.filterMap Call.acquires = r.mDev.toList := by
  unfold refs
  cases r.mDev <;> rfl

@[simp] theorem releases_refs (r : DeviceRef) : r.refs.filterMap Call.releases = [] := by
  unfold refs
  cases r.mDev <;> rfl

@[simp] theorem acquires_destroy (r : DeviceRef) : r.destroy.filterMap Call.acquires = [] := by
  unfold destroy
  cases r.mDev <;> rfl

@[simp] theorem releases_destroy (r : DeviceRef) : r.destroy.filterMap Call.releases = r.mDev.toList := by
  unfold destroy
  cases r.mDev <;> rfl

theorem filterMap_flatMap_calls {c : DeviceRef → List Call} {f : Call → Option Nat} {g : DeviceRef → Option Nat}
    (each : ∀ r, (c r).filterMap f = (g r).toList) (elements : List DeviceRef) :
    (elements.flatMap c).filterMap f = elements.filterMap g := by
  induction elements with
  | nil => rfl
  | cons r elements ih =>
    rw [List.flatMap_cons, List.filterMap_append, each, ih, Account.filterMap_cons_append]

theorem filterMap_none (elements : List DeviceRef) : elements.filterMap (fun _ => (none : Option Nat)) = [] :=
  List.filterMap_eq_nil_iff.mpr fun _ _ => rfl

theorem exact_iff : Exact s ↔ (account s).Balanced := by
  apply forall_congr'
  intro dev
  have acquired : s.log.count (.refDevice dev) = (s.log.filterMap Call.acquires).count dev := by
    rw [List.count_filterMap, List.count_eq_countP]
    apply List.countP_congr
    intro call _
    cases call <;> simp [Call.acquires]
  have released : s.log.count (.unrefDevice dev) = (s.log.filterMap Call.releases).count dev := by
    rw [List.count_filterMap, List.count_eq_countP]
    apply List.countP_congr
    intro call _
    cases call <;> simp [Call.releases]
  have held : references s dev + s.given.count dev = (account s).designated.count dev := by
    rw [account, List.count_append, List.count_append, List.count_filterMap, List.count_filterMap, references,
      Nat.add_assoc]
    rfl
  rw [acquired, released, held]
  rfl

theorem moves_of {calls : List Call} {old new old' new' given : List Nat} (log : s'.log = s.log ++ calls)
    (refs : (s'.refs.filterMap target ++ old).Perm (s.refs.filterMap target ++ new))
    (elements : (s'.elements.filterMap mDev ++ old').Perm (s.elements.filterMap mDev ++ new'))
    (released : s'.given = s.given ++ given) :
    Account.Moves (account s) (account s') (calls.filterMap Call.acquires) (calls.filterMap Call.releases)
      (old ++ old') (new ++ (new' ++ given)) := by
  refine ⟨by simp only [account, log, List.filterMap_append], by simp only [account, log, List.filterMap_append],
    List.perm_iff_count.mpr fun dev => ?_⟩
  have slots := refs.count_eq dev
  have vector := elements.count_eq dev
  simp only [account, released, List.count_append] at slots vector ⊢
  omega

theorem live_at (live : s.live a = some r) : s.refs[a]? = some (some r) := Option.join_eq_some_iff.mp live

theorem moves_add (s : State) (r : DeviceRef × List Call) :
    Account.Moves (account s) (account (s.add r)) (r.2.filterMap Call.acquires) (r.2.filterMap Call.releases) []
      r.1.mDev.toList := by
  have added : ((s.add r).refs.filterMap target ++ []).Perm (s.refs.filterMap target ++ r.1.mDev.toList) := by
    simp [State.add, Account.filterMap_cons_append, target]
  have moves : Account.Moves (account s) (account (s.add r)) (r.2.filterMap Call.acquires)
      (r.2.filterMap Call.releases) ([] ++ []) (r.1.mDev.toList ++ ([] ++ [])) :=
    moves_of rfl added (.refl _) (List.append_nil _).symm
  simpa using moves

theorem moves_put (live : s.live a = some r) (next : Option DeviceRef) (calls : List Call) :
    Account.Moves (account s) (account (s.put a next calls)) (calls.filterMap Call.acquires)
      (calls.filterMap Call.releases) r.mDev.toList (target next).toList := by
  have changed : ((s.put a next calls).refs.filterMap target ++ r.mDev.toList).Perm
      (s.refs.filterMap target ++ (target next).toList) :=
    Account.filterMap_set_perm (live_at live)
  have moves : Account.Moves (account s) (account (s.put a next calls)) (calls.filterMap Call.acquires)
      (calls.filterMap Call.releases) (r.mDev.toList ++ []) ((target next).toList ++ ([] ++ [])) :=
    moves_of rfl changed (.refl _) (List.append_nil _).symm
  simpa using moves

theorem moves_fill (s : State) (r : List DeviceRef × List Call) (old new : List Nat)
    (elements : (r.1.filterMap mDev ++ old).Perm (s.elements.filterMap mDev ++ new)) :
    Account.Moves (account s) (account (s.fill r)) (r.2.filterMap Call.acquires) (r.2.filterMap Call.releases)
      old new := by
  have moves : Account.Moves (account s) (account (s.fill r)) (r.2.filterMap Call.acquires)
      (r.2.filterMap Call.releases) ([] ++ old) ([] ++ (new ++ [])) :=
    moves_of rfl (.refl _) elements (List.append_nil _).symm
  simpa using moves

/-! ### The calls of the vector -/

/-- The elements of the vector hold devices. -/
def Filled (s : State) : Prop := ∀ r ∈ s.elements, r.mDev ≠ none

theorem length_filterMap (filled : ∀ r ∈ elements, r.mDev ≠ none) :
    (elements.filterMap mDev).length = elements.length := by
  induction elements with
  | nil => rfl
  | cons r elements ih =>
    obtain ⟨dev, holds⟩ := Option.ne_none_iff_exists'.mp (filled r List.mem_cons_self)
    rw [List.filterMap_cons_some holds, List.length_cons, List.length_cons,
      ih fun r member => filled r (List.mem_cons_of_mem _ member)]

theorem shiftDown_cons (this : DeviceRef) (rest : List DeviceRef) :
    shiftDown (this :: rest) = (rest, rest.flatMap refs ++ ((this :: rest).getLast (by simp)).destroy) := by
  induction rest generalizing this with
  | nil => rfl
  | cons other rest ih =>
    rw [shiftDown, ih other]
    simp [assign]

theorem emplaceBack_calls (elements : List DeviceRef) (dev : Nat) (reallocates : Bool) :
    ((emplaceBack elements dev reallocates).1.filterMap mDev = elements.filterMap mDev ++ [dev]) ∧
    ((emplaceBack elements dev reallocates).2.filterMap Call.acquires =
      [dev, dev] ++ if reallocates then elements.filterMap mDev else []) ∧
    (emplaceBack elements dev reallocates).2.filterMap Call.releases =
      (if reallocates then elements.filterMap mDev else []) ++ [dev] := by
  have acquires := filterMap_flatMap_calls (c := fun r => r.copy.2 ++ r.destroy) (f := Call.acquires) (g := mDev)
    (by simp [copy]) elements
  have releases := filterMap_flatMap_calls (c := fun r => r.copy.2 ++ r.destroy) (f := Call.releases) (g := mDev)
    (by simp [copy]) elements
  have kept : (elements.map fun r => r.copy.1) = elements := List.map_id'' (fun _ => rfl) elements
  cases reallocates with
  | false => exact ⟨List.filterMap_append .., rfl, rfl⟩
  | true =>
    simp only [emplaceBack, if_true, kept, List.filterMap_append, acquires, releases]
    exact ⟨rfl, by simp [ofDevice, copy, refs, destroy, Call.acquires], by
      simp [ofDevice, copy, refs, destroy]; rfl⟩

structure Operates (s s' : State) (even : Prop) : Prop where
  account : Account.Operates (account s) (account s') even
  filled : Filled s'

theorem operates_assign {e : Event} (filled : Filled s) (live : s.live a = some this)
    (empty : OntoEmpty s e ↔ this.mDev = none) :
    Operates s (s.put a (this.assign other).1 (this.assign other).2) (OntoEmpty s e) := by
  refine ⟨⟨_, _, _, _, moves_put live .., fun dev => ?_, ?_⟩, filled⟩
  · simp only [assign, releases_refs, acquires_refs, target, Option.bind_some, List.count_nil]
    omega
  · rw [empty]
    constructor
    · intro even
      have length := even.length_eq
      simp only [assign, releases_refs, acquires_refs, target, Option.bind_some, List.length_append,
        List.length_nil] at length
      cases held : this.mDev with
      | none => rfl
      | some dev =>
        rw [held, Option.toList_some, List.length_singleton] at length
        omega
    · intro none
      simp [assign, target, none]

theorem erase_eq {before : List DeviceRef} :
    erase (before ++ this :: rest) before.length =
      (before ++ rest, rest.flatMap refs ++ ((this :: rest).getLast (by simp)).destroy) := by
  rw [erase, List.drop_left, shiftDown_cons, List.take_left]

/-- All elements behind the one erased are referenced again, and the last one is unreferenced. -/
theorem operates_erase {before : List DeviceRef} (filled : Filled s) (whole : s.elements = before ++ this :: rest) :
    Operates s (s.fill (erase s.elements before.length)) (OntoEmpty s (.erase before.length)) := by
  have holds : ∀ r ∈ this :: rest, r.mDev ≠ none := fun r member =>
    filled r (by rw [whole]; exact List.mem_append_right _ member)
  have erased : erase s.elements before.length = _ := whole ▸ erase_eq
  obtain ⟨dev, mine⟩ := Option.ne_none_iff_exists'.mp (holds this List.mem_cons_self)
  obtain ⟨lastDev, last⟩ := Option.ne_none_iff_exists'.mp (holds _ (List.getLast_mem (l := this :: rest) (by simp)))
  have acquires := filterMap_flatMap_calls acquires_refs rest
  have releases := filterMap_flatMap_calls (g := fun _ => none) releases_refs rest
  rw [filterMap_none] at releases
  have moved : ((before ++ rest).filterMap mDev ++ [dev]).Perm (s.elements.filterMap mDev ++ []) := by
    rw [whole, List.append_nil, List.filterMap_append, List.filterMap_append, List.filterMap_cons_some mine,
      List.append_assoc]
    exact List.perm_append_singleton .. |>.append_left _
  have moves := moves_fill s (before ++ rest, rest.flatMap refs ++ ((this :: rest).getLast (by simp)).destroy) _ _ moved
  simp only [List.filterMap_append, acquires, releases, acquires_destroy, releases_destroy, last, Option.toList_some,
    List.append_nil, List.nil_append] at moves
  rw [erased]
  refine ⟨⟨_, _, _, _, moves, fun t => ?_, ?_⟩, fun r member => ?_⟩
  · have among : lastDev ∈ dev :: rest.filterMap mDev := by
      rw [← List.filterMap_cons_some mine]
      exact List.mem_filterMap.mpr ⟨_, List.getLast_mem _, last⟩
    have one : [lastDev].count t ≤ ([dev] ++ rest.filterMap mDev).count t :=
      (List.singleton_sublist.mpr among).count_le t
    rw [List.count_append] at one
    rw [List.count_nil]
    omega
  · have behind : OntoEmpty s (.erase before.length) ↔ rest = [] := by
      rw [OntoEmpty, whole, List.length_append, List.length_cons, ← List.length_eq_zero_iff]
      omega
    rw [behind, List.append_nil]
    constructor
    · intro even
      have length := even.length_eq
      rw [List.length_append, length_filterMap fun r member => holds r (List.mem_cons_of_mem _ member)] at length
      exact List.length_eq_zero_iff.mp (by simpa using length)
    · rintro rfl
      obtain rfl := Option.some.inj (mine.symm.trans last)
      exact .refl _
  · apply filled r
    rw [whole]
    exact (List.append_sublist_append_left _ |>.mpr (List.sublist_cons_self ..)).subset member

theorem operates_step (filled : Filled s) (h : machine.step s e = some s') : Operates s s' (OntoEmpty s e) := by
  change step s e = some s' at h
  cases e with
  | construct =>
    obtain rfl := Option.some.inj h
    exact ⟨(moves_add ..).operates (.refl _) trivial, filled⟩
  | fromDevice dev =>
    obtain rfl := Option.some.inj h
    exact ⟨(moves_add ..).operates (by simp [ofDevice, Call.acquires, Call.releases]) trivial, filled⟩
  | copy b =>
    obtain ⟨other, live, h⟩ := Option.bind_eq_some_iff.mp h
    obtain rfl := Option.some.inj h
    exact ⟨(moves_add ..).operates (by simp [copy]) trivial, filled⟩
  | assign a b =>
    obtain ⟨this, live, h⟩ := Option.bind_eq_some_iff.mp h
    obtain ⟨other, _, h⟩ := Option.bind_eq_some_iff.mp h
    obtain rfl := Option.some.inj h
    exact operates_assign filled live (by simp [OntoEmpty, live])
  | release a =>
    obtain ⟨this, live, h⟩ := Option.bind_eq_some_iff.mp h
    obtain rfl := Option.some.inj h
    have emptied : ((s.refs.set a (some ⟨none⟩)).filterMap target ++ this.mDev.toList).Perm
        (s.refs.filterMap target ++ []) := Account.filterMap_set_perm (live_at live)
    have moves : Account.Moves (account s)
        (account { s.put a this.release.1 [] with given := s.given ++ this.mDev.toList })
        (([] : List Call).filterMap Call.acquires) (([] : List Call).filterMap Call.releases)
        (this.mDev.toList ++ []) ([] ++ ([] ++ this.mDev.toList)) :=
      moves_of rfl emptied (.refl _) rfl
    exact ⟨moves.operates (by simp) trivial, filled⟩
  | destroy a =>
    obtain ⟨this, live, h⟩ := Option.bind_eq_some_iff.mp h
    obtain rfl := Option.some.inj h
    exact ⟨(moves_put live ..).operates (by simp [target]) trivial, filled⟩
  | emplaceBack dev reallocates =>
    obtain rfl := Option.some.inj h
    obtain ⟨held, acquires, releases⟩ := emplaceBack_calls s.elements dev reallocates
    have moves := moves_fill s (emplaceBack s.elements dev reallocates) [] [dev]
      (.of_eq (by rw [held, List.append_nil]))
    rw [acquires, releases] at moves
    refine ⟨moves.operates ?_ trivial, fun r member => ?_⟩
    · rw [List.append_nil, List.append_assoc]
      exact List.perm_append_comm
    · rcases List.mem_append.mp member with old | new
      · cases reallocates with
        | false => exact filled r old
        | true =>
          obtain ⟨before, inside, rfl⟩ := List.mem_map.mp old
          exact filled before inside
      · rw [List.mem_singleton.mp new]
        exact Option.some_ne_none dev
  | assignElement a position =>
    obtain ⟨this, live, h⟩ := Option.bind_eq_some_iff.mp h
    obtain ⟨other, _, h⟩ := Option.bind_eq_some_iff.mp h
    obtain rfl := Option.some.inj h
    exact operates_assign filled live (by simp [OntoEmpty, live])
  | erase position =>
    simp only [step, Option.ite_none_right_eq_some] at h
    obtain ⟨inside, h⟩ := h
    obtain rfl := Option.some.inj h
    have whole : s.elements = s.elements.take position ++ s.elements[position] :: s.elements.drop (position + 1) := by
      rw [← List.drop_eq_getElem_cons inside, List.take_append_drop]
    have length : (s.elements.take position).length = position := List.length_take_of_le inside.le
    exact length ▸ operates_erase filled whole
  | popBack =>
    simp only [step, Option.ite_none_left_eq_some] at h
    obtain ⟨some_element, h⟩ := h
    obtain rfl := Option.some.inj h
    obtain ⟨before, last, whole⟩ := (List.eq_nil_or_concat' s.elements).resolve_left some_element
    have popped : popBack s.elements = (before, last.destroy) := by simp [popBack, whole]
    have lost : (before.filterMap mDev ++ last.mDev.toList).Perm (s.elements.filterMap mDev ++ []) := by
      simp [whole, Account.filterMap_cons_append]
    rw [popped]
    refine ⟨(moves_fill s (before, last.destroy) _ _ lost).operates (by simp) trivial, fun r member => filled r ?_⟩
    exact whole ▸ List.mem_append_left _ member
  | clear =>
    obtain rfl := Option.some.inj h
    have acquires := filterMap_flatMap_calls (g := fun _ => none) acquires_destroy s.elements
    have releases := filterMap_flatMap_calls releases_destroy s.elements
    rw [filterMap_none] at acquires
    have moves := moves_fill s (clear s.elements) (s.elements.filterMap mDev) [] (by simp [clear])
    simp only [clear, acquires, releases] at moves
    exact ⟨moves.operates (by simp) trivial, fun r member => by cases member⟩

/-! ### Runs -/

/-- After every sequence of operations the calls for each device balance exactly when no reference that holds a device
was assigned to, and no element but the last was erased from the vector. -/
theorem device_references_exact_iff (es : List Event) (s : State) (h : machine.run {} es = some s) :
    Exact s ↔ machine.Meets OntoEmpty {} es := by
  have kept := Machine.meets_iff (m := machine) (C := OntoEmpty) (I := fun s => Filled s ∧ (account s).Solvent)
    (P := fun s => (account s).Balanced) ?_ ⟨by simp [Filled], fun _ => le_rfl⟩ (fun _ => rfl) h
  · exact exact_iff.trans kept.2
  · rintro s e s' ⟨filled, solvent⟩ step
    obtain ⟨account, filled'⟩ := operates_step filled step
    obtain ⟨solvent', same⟩ := account.keeps solvent
    exact ⟨⟨filled', solvent'⟩, same⟩

theorem device_references_exact_iff_last :
    ∃ s, machine.run {} [.emplaceBack 7 true, .emplaceBack 8 true, .construct, .assignElement 0 1, .erase 1, .clear] =
        some s ∧ Exact s := by
  have run : machine.run {} [.emplaceBack 7 true, .emplaceBack 8 true, .construct, .assignElement 0 1, .erase 1,
    .clear] = some _ := rfl
  exact ⟨_, run, (device_references_exact_iff _ _ run).mpr (by decide)⟩

/-- The first of two devices is erased and stays referenced after the vector is cleared. -/
theorem erased_device_stays_referenced :
    ∃ s, machine.run {} [.emplaceBack 7 false, .emplaceBack 8 false, .erase 0, .clear] = some s ∧
      s.refs = [] ∧ s.elements = [] ∧ s.given = [] ∧
      s.log = [.refDevice 7, .refDevice 7, .unrefDevice 7, .refDevice 8, .refDevice 8, .unrefDevice 8,
        .refDevice 8, .unrefDevice 8, .unrefDevice 8] ∧ ¬ Exact s :=
  ⟨_, rfl, rfl, rfl, rfl, rfl, fun exact => absurd (exact 7) (by decide)⟩

end DeviceRef

end CoUsb

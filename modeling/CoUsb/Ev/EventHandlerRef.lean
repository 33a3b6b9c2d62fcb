import CoUsb.Lib.Account
import CoUsb.Lib.Machine
import CoUsb.Libusb

/-!
# `event_handler_ref`

Any number of references to any number of handlers. A reference erases the type of its handler, and keeps the
vtable of the type it was taken from.
-/

namespace CoUsb.Ev

/-- The vtable is named by the type it was made for. -/
structure EventHandlerRef (H τ : Type) where
  mOriginal : Option H := none
  mVtable : Option τ := none
  deriving DecidableEq, Repr

namespace EventHandlerRef

variable {H τ : Type}

/-- A function of the vtable called on a handler. -/
inductive Call (H τ : Type) where
  | ref (handler : H) (type : Option τ)
  | unref (handler : H) (type : Option τ)
  deriving DecidableEq, Repr

structure State (H τ : Type) where
  /-- The references constructed so far, `none` once destroyed. -/
  refs : List (Option (EventHandlerRef H τ)) := []
  log : List (Call H τ) := []

inductive Event (H : Type) where
  | construct
  | fromHandler (handler : H)
  | assignHandler (a : Nat) (handler : H)
  | copy (other : Nat)
  | copyAssign (a other : Nat)
  | move (other : Nat)
  | moveAssign (a other : Nat)
  | destroy (a : Nat)
  deriving DecidableEq, Repr

def ref (r : EventHandlerRef H τ) : List (Call H τ) :=
  match r.mOriginal with
  | some handler => [.ref handler r.mVtable]
  | none => []

def unref (r : EventHandlerRef H τ) : List (Call H τ) :=
  match r.mOriginal with
  | some handler => [.unref handler r.mVtable]
  | none => []

def movedFrom (r : EventHandlerRef H τ) : EventHandlerRef H τ := { r with mOriginal := none }

def of (typeOf : H → τ) (handler : H) : EventHandlerRef H τ := ⟨some handler, some (typeOf handler)⟩

namespace State

def live (s : State H τ) (a : Nat) : Option (EventHandlerRef H τ) := (s.refs[a]?).join

def add (s : State H τ) (r : EventHandlerRef H τ) (calls : List (Call H τ)) : State H τ :=
  ⟨s.refs ++ [some r], s.log ++ calls⟩

def put (s : State H τ) (a : Nat) (r : Option (EventHandlerRef H τ)) (calls : List (Call H τ)) : State H τ :=
  ⟨s.refs.set a r, s.log ++ calls⟩

end State

def references [DecidableEq H] (s : State H τ) (handler : H) : Nat :=
  s.refs.countP fun r => r.bind mOriginal == some handler

section

variable [DecidableEq H] [DecidableEq τ] (typeOf : H → τ)

def step (s : State H τ) : Event H → Option (State H τ)
  | .construct => some (s.add {} [])
  | .fromHandler handler => some (s.add (of typeOf handler) (of typeOf handler).ref)
  | .assignHandler a handler => do
    let r ← s.live a
    if r.mOriginal = some handler then some s
    else some (s.put a (of typeOf handler) (of typeOf handler).ref)
  | .copy b => do
    let other ← s.live b
    some (s.add other other.ref)
  | .copyAssign a b => do
    let r ← s.live a
    let other ← s.live b
    if a = b then some s else some (s.put a other (r.unref ++ other.ref))
  | .move b => do
    let other ← s.live b
    some ((s.put b other.movedFrom []).add other [])
  | .moveAssign a b => do
    let r ← s.live a
    let other ← s.live b
    if a = b then some s else some ((s.put a other r.unref).put b other.movedFrom [])
  | .destroy a => do
    let r ← s.live a
    some (s.put a none r.unref)

def machine : Machine (State H τ) (Event H) := ⟨step typeOf⟩

/-! ### The counts -/

/-- `m_counter` of a `refcounted_event_handler` after the calls it received. -/
def counterOf (log : List (Call H τ)) (handler : H) : Nat :=
  log.foldl (fun n call =>
    if call = .ref handler (some (typeOf handler)) then sizeT (n + 1)
    else if call = .unref handler (some (typeOf handler)) then Word.sub 64 n 1
    else n) 0

/-- The calls of `ref` that reached the function of the handler's own type. -/
def refsOf (log : List (Call H τ)) (handler : H) : Nat := log.count (.ref handler (some (typeOf handler)))

def unrefsOf (log : List (Call H τ)) (handler : H) : Nat := log.count (.unref handler (some (typeOf handler)))

structure Exact (s : State H τ) : Prop where
  count : ∀ handler, refsOf typeOf s.log handler = unrefsOf typeOf s.log handler + references s handler
  counter : ∀ handler, counterOf typeOf s.log handler = sizeT (references s handler)

/-- No handler is assigned to a reference that designates another one. -/
def NotOverwritten (s : State H τ) : Event H → Prop
  | .assignHandler a handler => ∀ r, s.live a = some r → r.mOriginal = none ∨ r.mOriginal = some handler
  | _ => True

end

/-! ### The account -/

namespace Call

def handler : Call H τ → H
  | .ref handler _ | .unref handler _ => handler

def type : Call H τ → Option τ
  | .ref _ type | .unref _ type => type

def acquires : Call H τ → Option H
  | .ref handler _ => some handler
  | .unref _ _ => none

def releases : Call H τ → Option H
  | .ref _ _ => none
  | .unref handler _ => some handler

end Call

def target (r : Option (EventHandlerRef H τ)) : Option H := r.bind mOriginal

/-- The calls in the log with the handlers the references designate. -/
def account (s : State H τ) : Account H :=
  ⟨s.log.filterMap Call.acquires, s.log.filterMap Call.releases, s.refs.filterMap target⟩

variable {s s' : State H τ} {e : Event H} {es : List (Event H)} {r other : EventHandlerRef H τ} {a b : Nat}
  {handler : H}

@[simp] theorem acquires_ref (r : EventHandlerRef H τ) : r.ref.filterMap Call.acquires = r.mOriginal.toList := by
  unfold ref
  cases r.mOriginal <;> rfl

@[simp] theorem releases_ref (r : EventHandlerRef H τ) : r.ref.filterMap Call.releases = [] := by
  unfold ref
  cases r.mOriginal <;> rfl

@[simp] theorem acquires_unref (r : EventHandlerRef H τ) : r.unref.filterMap Call.acquires = [] := by
  unfold unref
  cases r.mOriginal <;> rfl

@[simp] theorem releases_unref (r : EventHandlerRef H τ) : r.unref.filterMap Call.releases = r.mOriginal.toList := by
  unfold unref
  cases r.mOriginal <;> rfl

theorem live_at (live : s.live a = some r) : s.refs[a]? = some (some r) := Option.join_eq_some_iff.mp live

theorem moves_add (s : State H τ) (r : EventHandlerRef H τ) (calls : List (Call H τ)) :
    Account.Moves (account s) (account (s.add r calls)) (calls.filterMap Call.acquires)
      (calls.filterMap Call.releases) [] r.mOriginal.toList := by
  refine ⟨List.filterMap_append .., List.filterMap_append .., .of_eq ?_⟩
  simp only [account, State.add, List.filterMap_append, Account.filterMap_cons_append, target, Option.bind_some,
    List.filterMap_nil, List.append_nil]

theorem moves_put (live : s.live a = some r) (next : Option (EventHandlerRef H τ)) (calls : List (Call H τ)) :
    Account.Moves (account s) (account (s.put a next calls)) (calls.filterMap Call.acquires)
      (calls.filterMap Call.releases) r.mOriginal.toList (target next).toList :=
  ⟨List.filterMap_append .., List.filterMap_append .., Account.filterMap_set_perm (live_at live)⟩

/-! ### The vtables -/

def Matches (typeOf : H → τ) (r : EventHandlerRef H τ) : Prop :=
  ∀ handler, r.mOriginal = some handler → r.mVtable = some (typeOf handler)

/-- Every call reaches the function of the handler's type. -/
structure Typed (typeOf : H → τ) (s : State H τ) : Prop where
  refs : ∀ r, some r ∈ s.refs → r.Matches typeOf
  calls : ∀ call ∈ s.log, call.type = some (typeOf call.handler)

variable {typeOf : H → τ}

theorem of_matches (typeOf : H → τ) (handler : H) : (of typeOf handler).Matches typeOf := by
  intro other same
  exact Option.some.inj same ▸ rfl

theorem movedFrom_matches (r : EventHandlerRef H τ) : r.movedFrom.Matches typeOf := by
  intro handler same
  cases same

theorem Matches.ref (fits : r.Matches typeOf) : ∀ call ∈ r.ref, call.type = some (typeOf call.handler) := by
  unfold EventHandlerRef.ref
  split
  case h_1 handler same =>
    intro call member
    rw [List.mem_singleton.mp member]
    exact fits handler same
  case h_2 => simp

theorem Matches.unref (fits : r.Matches typeOf) : ∀ call ∈ r.unref, call.type = some (typeOf call.handler) := by
  unfold EventHandlerRef.unref
  split
  case h_1 handler same =>
    intro call member
    rw [List.mem_singleton.mp member]
    exact fits handler same
  case h_2 => simp

theorem Typed.matches (typed : Typed typeOf s) (live : s.live a = some r) : r.Matches typeOf :=
  typed.refs r (List.mem_of_getElem? (live_at live))

theorem Typed.add {calls : List (Call H τ)} (typed : Typed typeOf s) (fits : r.Matches typeOf)
    (more : ∀ call ∈ calls, call.type = some (typeOf call.handler)) : Typed typeOf (s.add r calls) := by
  refine ⟨fun other member => ?_, fun call member => ?_⟩
  · rcases List.mem_append.mp member with old | new
    · exact typed.refs other old
    · exact Option.some.inj (List.mem_singleton.mp new) ▸ fits
  · exact (List.mem_append.mp member).elim (typed.calls call) (more call)

theorem Typed.put {next : Option (EventHandlerRef H τ)} {calls : List (Call H τ)} (typed : Typed typeOf s)
    (fits : ∀ r, next = some r → r.Matches typeOf)
    (more : ∀ call ∈ calls, call.type = some (typeOf call.handler)) : Typed typeOf (s.put a next calls) := by
  refine ⟨fun other member => ?_, fun call member => ?_⟩
  · rcases List.mem_or_eq_of_mem_set member with old | new
    · exact typed.refs other old
    · exact fits other new.symm
  · exact (List.mem_append.mp member).elim (typed.calls call) (more call)

theorem live_put_of_ne {next : Option (EventHandlerRef H τ)} {calls : List (Call H τ)} (different : a ≠ b) :
    (s.put a next calls).live b = s.live b := by
  rw [State.live, State.put, List.getElem?_set_ne different, State.live]

theorem calls_append {calls more : List (Call H τ)} (first : ∀ call ∈ calls, call.type = some (typeOf call.handler))
    (second : ∀ call ∈ more, call.type = some (typeOf call.handler)) :
    ∀ call ∈ calls ++ more, call.type = some (typeOf call.handler) :=
  fun call member => (List.mem_append.mp member).elim (first call) (second call)

/-! ### What an operation does -/

variable [DecidableEq H]

/-- An operation that keeps every vtable right, and the counts exact when `even` holds. -/
structure Operates (typeOf : H → τ) (s s' : State H τ) (even : Prop) : Prop where
  account : Account.Operates (account s) (account s') even
  typed : Typed typeOf s → Typed typeOf s'

theorem operates_assignHandler (live : s.live a = some r) (other : r.mOriginal ≠ some handler) :
    Operates typeOf s (s.put a (of typeOf handler) (of typeOf handler).ref)
      (NotOverwritten s (.assignHandler a handler)) := by
  have fits := of_matches typeOf handler
  refine ⟨⟨_, _, _, _, moves_put live .., ?_, ?_⟩, fun typed => typed.put ?_ fits.ref⟩
  · intro t
    simp only [releases_ref, acquires_ref, target, Option.bind_some, List.count_nil]
    omega
  · have free : NotOverwritten s (.assignHandler a handler) ↔ r.mOriginal = none := by
      simp [NotOverwritten, live, other]
    rw [free]
    refine ⟨fun even => ?_, fun none => ?_⟩
    · have length := even.length_eq
      cases original : r.mOriginal with
      | none => rfl
      | some g => simp [target, of, original] at length
    · simp [target, none]
  · rintro _ same
    exact Option.some.inj same ▸ fits

theorem operates_step [DecidableEq τ] (h : (machine typeOf).step s e = some s') :
    Operates typeOf s s' (NotOverwritten s e) := by
  change step typeOf s e = some s' at h
  cases e with
  | construct =>
    obtain rfl := Option.some.inj h
    exact ⟨(moves_add ..).operates (.refl _) trivial, fun typed => typed.add (by simp [Matches]) (by simp)⟩
  | fromHandler handler =>
    obtain rfl := Option.some.inj h
    have fits := of_matches typeOf handler
    exact ⟨(moves_add ..).operates (by simp) trivial, fun typed => typed.add fits fits.ref⟩
  | assignHandler a handler =>
    obtain ⟨r, live, h⟩ := Option.bind_eq_some_iff.mp h
    split at h
    case isTrue same =>
      obtain rfl := Option.some.inj h
      exact ⟨.refl _ (by simp [NotOverwritten, live, same]), id⟩
    case isFalse other =>
      obtain rfl := Option.some.inj h
      exact operates_assignHandler live other
  | copy b =>
    obtain ⟨other, live, h⟩ := Option.bind_eq_some_iff.mp h
    obtain rfl := Option.some.inj h
    refine ⟨(moves_add ..).operates (by simp) trivial, fun typed => ?_⟩
    exact typed.add (typed.matches live) (typed.matches live).ref
  | copyAssign a b =>
    obtain ⟨r, live, h⟩ := Option.bind_eq_some_iff.mp h
    obtain ⟨other, live', h⟩ := Option.bind_eq_some_iff.mp h
    split at h
    case isTrue =>
      obtain rfl := Option.some.inj h
      exact ⟨.refl _ trivial, id⟩
    case isFalse =>
      obtain rfl := Option.some.inj h
      refine ⟨(moves_put live ..).operates ?_ trivial, fun typed => ?_⟩
      · simp [target, List.perm_append_comm]
      · have fits := typed.matches live'
        exact typed.put (by simpa using fits) (calls_append (typed.matches live).unref fits.ref)
  | move b =>
    obtain ⟨other, live, h⟩ := Option.bind_eq_some_iff.mp h
    obtain rfl := Option.some.inj h
    refine ⟨((moves_put live ..).trans (moves_add ..)).operates ?_ trivial, fun typed => ?_⟩
    · simp [target, movedFrom]
    · have emptied : Typed typeOf (s.put b (some other.movedFrom) []) :=
        typed.put (by simpa using movedFrom_matches other) (by simp)
      exact emptied.add (typed.matches live) (by simp)
  | moveAssign a b =>
    obtain ⟨r, live, h⟩ := Option.bind_eq_some_iff.mp h
    obtain ⟨other, live', h⟩ := Option.bind_eq_some_iff.mp h
    split at h
    case isTrue =>
      obtain rfl := Option.some.inj h
      exact ⟨.refl _ trivial, id⟩
    case isFalse different =>
      obtain rfl := Option.some.inj h
      have still : (s.put a other r.unref).live b = some other := (live_put_of_ne different).trans live'
      refine ⟨((moves_put live ..).trans (moves_put still ..)).operates ?_ trivial, fun typed => ?_⟩
      · simp [target, movedFrom]
      · have taken : Typed typeOf (s.put a (some other) r.unref) :=
          typed.put (by simpa using typed.matches live') (typed.matches live).unref
        exact taken.put (by simpa using movedFrom_matches other) (by simp)
  | destroy a =>
    obtain ⟨r, live, h⟩ := Option.bind_eq_some_iff.mp h
    obtain rfl := Option.some.inj h
    refine ⟨(moves_put live ..).operates (by simp [target]) trivial, fun typed => typed.put (by simp) ?_⟩
    exact (typed.matches live).unref

/-! ### Runs -/

theorem references_eq (s : State H τ) (handler : H) : references s handler = (account s).designated.count handler :=
  List.count_filterMap.symm

variable [DecidableEq τ]

theorem counts_of_typed (typed : Typed typeOf s) (handler : H) :
    refsOf typeOf s.log handler = (account s).acquired.count handler ∧
      unrefsOf typeOf s.log handler = (account s).released.count handler := by
  constructor <;> rw [account, List.count_filterMap]
  · rw [refsOf, List.count_eq_countP]
    apply List.countP_congr
    intro call member
    have own := typed.calls call member
    cases call <;> simp_all [Call.acquires, Call.type, Call.handler]
  · rw [unrefsOf, List.count_eq_countP]
    apply List.countP_congr
    intro call member
    have own := typed.calls call member
    cases call <;> simp_all [Call.releases, Call.type, Call.handler]

/-- Modulo `2 ^ 64` the counter is the number of calls of `ref` less those of `unref`. -/
theorem counter_spec (typeOf : H → τ) (log : List (Call H τ)) (handler : H) :
    counterOf typeOf log handler < 2 ^ 64 ∧
      sizeT (counterOf typeOf log handler + unrefsOf typeOf log handler) = sizeT (refsOf typeOf log handler) := by
  induction log using List.reverseRecOn with
  | nil => exact ⟨Nat.two_pow_pos 64, rfl⟩
  | append_singleton log call ih =>
    obtain ⟨bound, same⟩ := ih
    have next : counterOf typeOf (log ++ [call]) handler =
        if call = .ref handler (some (typeOf handler)) then sizeT (counterOf typeOf log handler + 1)
        else if call = .unref handler (some (typeOf handler)) then Word.sub 64 (counterOf typeOf log handler) 1
        else counterOf typeOf log handler := by
      rw [counterOf, List.foldl_append]
      rfl
    simp only [unrefsOf, refsOf, List.count_append, List.count_singleton, next, beq_iff_eq] at same ⊢
    simp only [sizeT, Word.wrap, Word.sub] at same ⊢
    by_cases gained : call = .ref handler (some (typeOf handler))
    · subst gained
      simp only [if_true, reduceCtorEq, if_false, Nat.add_zero]
      omega
    · by_cases lost : call = .unref handler (some (typeOf handler))
      · subst lost
        simp only [if_true, reduceCtorEq, if_false, Nat.add_zero]
        omega
      · simp only [gained, lost, if_false, Nat.add_zero]
        exact ⟨bound, same⟩

theorem exact_iff (typed : Typed typeOf s) : Exact typeOf s ↔ (account s).Balanced := by
  have counts := fun handler => counts_of_typed typed handler
  constructor
  · intro exact handler
    rw [← (counts handler).1, ← (counts handler).2, ← references_eq]
    exact exact.count handler
  · intro balanced
    have count : ∀ handler, refsOf typeOf s.log handler =
        unrefsOf typeOf s.log handler + references s handler := by
      intro handler
      rw [(counts handler).1, (counts handler).2, references_eq]
      exact balanced handler
    refine ⟨count, fun handler => ?_⟩
    obtain ⟨bound, same⟩ := counter_spec typeOf s.log handler
    rw [count handler] at same
    simp only [sizeT, Word.wrap] at same ⊢
    omega

/-- After every sequence of operations each handler has received one `ref` for each reference that designates it
beside those undone by `unref`, exactly when no handler was assigned to a reference that designates another one. -/
theorem reference_counts_exact_iff (typeOf : H → τ) (es : List (Event H)) (s : State H τ)
    (h : (machine typeOf).run {} es = some s) :
    Exact typeOf s ↔ (machine typeOf).Meets NotOverwritten {} es := by
  have kept := Machine.meets_iff (m := machine typeOf) (C := NotOverwritten)
    (I := fun s => Typed typeOf s ∧ (account s).Solvent) (P := fun s => (account s).Balanced) ?_
    ⟨⟨by simp, by simp⟩, fun _ => le_rfl⟩ (fun _ => rfl) h
  · exact (exact_iff kept.1.1).trans kept.2
  · rintro s e s' ⟨typed, solvent⟩ step
    obtain ⟨account, keeps⟩ := operates_step step
    obtain ⟨solvent', same⟩ := account.keeps solvent
    exact ⟨⟨keeps typed, solvent'⟩, same⟩

theorem reference_counts_exact_iff_moved :
    ∃ s, (machine fun _ : Nat => ()).run {} [.fromHandler 0, .fromHandler 1, .copyAssign 0 1, .move 1, .destroy 0] =
        some s ∧
      Exact (fun _ => ()) s := by
  have run : (machine fun _ : Nat => ()).run {} [.fromHandler 0, .fromHandler 1, .copyAssign 0 1, .move 1,
    .destroy 0] = some _ := rfl
  refine ⟨_, run, (reference_counts_exact_iff _ _ _ run).mpr (Machine.meets_of_forall ?_)⟩
  simp [NotOverwritten]

/-- The handler assigned over is never released: its counter stays at one without a reference. -/
theorem overwritten_handler_not_released :
    ∃ s, (machine fun _ : Nat => ()).run {} [.fromHandler 0, .assignHandler 0 1, .destroy 0] = some s ∧
      s.refs = [none] ∧ s.log = [.ref 0 (some ()), .ref 1 (some ()), .unref 1 (some ())] ∧
      counterOf (fun _ => ()) s.log 0 = 1 ∧ ¬ Exact (fun _ => ()) s := by
  refine ⟨_, rfl, rfl, rfl, rfl, fun exact => ?_⟩
  exact absurd (exact.count 0) (by decide)

end EventHandlerRef

end CoUsb.Ev

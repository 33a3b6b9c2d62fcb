import CoUsb.Ev.HandlerService

/-!
# The references to a service's handler

A reference points at the slot of the service, so it counts on the handler that is stored when it was
taken and on the one stored when it is given back.
-/

namespace CoUsb.Ev

variable {s s' : State} {e : Operation} {es : List Operation} {type : HandlerType} {built : Bool} {launch : Launch}
  {r : Nat}

/-- The stored `refcounted_event_handler` counts the valid references, and was never decremented at zero. -/
def CountsExactly (s : State) : Prop := ∀ x, s.mHandler = some x → x.type = .refcounted →
  x.counter = s.valid.card ∧ .unref x.id 0 ∉ s.log

/-- A call that stores a `refcounted_event_handler`. -/
def emplacesCounted (s : State) : Operation → Bool
  | .emplaceHandler type built => type == .refcounted && built
  | .makeContext r type built _ => r == 0 && type == .refcounted && built
  | .getHandlerService r built _ => !s.mStarted && r == 0 && built
  | _ => false

/-- A `refcounted_event_handler` is stored when no reference is valid. -/
def EmplacesAlone (s : State) (e : Operation) : Prop := emplacesCounted s e = true → s.valid = ∅

instance (s : State) (e : Operation) : Decidable (EmplacesAlone s e) := inferInstanceAs (Decidable (_ → _))

/-! ### The two sets of references -/

/-- Every reference was handed out and is valid or not. -/
structure Placed (valid null : Finset Nat) (next : Nat) : Prop where
  apart : ∀ r ∈ valid, r ∉ null
  validUsed : ∀ r ∈ valid, r < next
  nullUsed : ∀ r ∈ null, r < next
  bound : valid.card + null.card < 2 ^ 64

namespace Placed

variable {valid null : Finset Nat} {next : Nat} (placed : Placed valid null next)

include placed

theorem fresh : next ∉ valid ∧ next ∉ null :=
  ⟨fun member => lt_irrefl _ (placed.validUsed _ member), fun member => lt_irrefl _ (placed.nullUsed _ member)⟩

theorem more (room : valid.card + null.card + 1 < 2 ^ 64) : Placed (insert next valid) null (next + 1) := by
  obtain ⟨unused, apart⟩ := placed.fresh
  refine ⟨fun r member => ?_, fun r member => ?_, fun r member => Nat.lt_succ_of_lt (placed.nullUsed r member), ?_⟩
  · rcases Finset.mem_insert.mp member with rfl | old
    · exact apart
    · exact placed.apart r old
  · rcases Finset.mem_insert.mp member with rfl | old
    · exact Nat.lt_succ_self _
    · exact Nat.lt_succ_of_lt (placed.validUsed r old)
  · rw [Finset.card_insert_of_notMem unused]
    omega

theorem moreNull (room : valid.card + null.card + 1 < 2 ^ 64) : Placed valid (insert next null) (next + 1) := by
  obtain ⟨unused, apart⟩ := placed.fresh
  refine ⟨fun r member other => ?_, fun r member => Nat.lt_succ_of_lt (placed.validUsed r member),
    fun r member => ?_, ?_⟩
  · rcases Finset.mem_insert.mp other with rfl | old
    · exact unused member
    · exact placed.apart r member old
  · rcases Finset.mem_insert.mp member with rfl | old
    · exact Nat.lt_succ_self _
    · exact Nat.lt_succ_of_lt (placed.nullUsed r old)
  · rw [Finset.card_insert_of_notMem apart]
    omega

theorem invalidate (here : r ∈ valid) : Placed (valid.erase r) (insert r null) next := by
  have positive := Finset.card_pos.mpr ⟨r, here⟩
  have bound := placed.bound
  refine ⟨fun i member other => ?_, fun i member => placed.validUsed i (Finset.mem_of_mem_erase member),
    fun i member => ?_, ?_⟩
  · obtain ⟨different, valid⟩ := Finset.mem_erase.mp member
    exact (Finset.mem_insert.mp other).elim different (placed.apart i valid)
  · rcases Finset.mem_insert.mp member with rfl | old
    · exact placed.validUsed _ here
    · exact placed.nullUsed i old
  · rw [Finset.card_erase_of_mem here, Finset.card_insert_of_notMem (placed.apart r here)]
    omega

theorem validate (here : r ∈ null) : Placed (insert r valid) (null.erase r) next := by
  have positive := Finset.card_pos.mpr ⟨r, here⟩
  have bound := placed.bound
  have absent : r ∉ valid := fun member => placed.apart r member here
  refine ⟨fun i member other => ?_, fun i member => ?_,
    fun i member => placed.nullUsed i (Finset.mem_of_mem_erase member), ?_⟩
  · obtain ⟨different, null⟩ := Finset.mem_erase.mp other
    exact (Finset.mem_insert.mp member).elim different fun valid => placed.apart i valid null
  · rcases Finset.mem_insert.mp member with rfl | old
    · exact placed.nullUsed _ here
    · exact placed.validUsed i old
  · rw [Finset.card_erase_of_mem here, Finset.card_insert_of_notMem absent]
    omega

theorem forget (r : Nat) : Placed valid (null.erase r) next := by
  have bound := placed.bound
  have less := Finset.card_le_card (Finset.erase_subset r null)
  exact ⟨fun i member other => placed.apart i member (Finset.mem_of_mem_erase other), placed.validUsed,
    fun i member => placed.nullUsed i (Finset.mem_of_mem_erase member), by omega⟩

end Placed

/-! ### The counter -/

structure Sound (s : State) : Prop where
  placed : Placed s.valid s.null s.nextRef
  stored : ∀ x, s.mHandler = some x → x.id < s.nextHandler
  unrefs : ∀ h n, .unref h n ∈ s.log → h < s.nextHandler
  exactly : CountsExactly s

theorem room_lt (room : hasRoom s = true) : s.valid.card + s.null.card + 1 < 2 ^ 64 := of_decide_eq_true room

theorem ref_counter {x : Handler} (counted : x.type = .refcounted) (bound : x.counter + 1 < 2 ^ 64) :
    x.ref.counter = x.counter + 1 := by
  unfold Handler.ref
  rw [counted]
  exact Word.wrap_of_lt bound

theorem unref_counter {x : Handler} (counted : x.type = .refcounted) (positive : 0 < x.counter)
    (bound : x.counter < 2 ^ 64) : x.unref.counter = x.counter - 1 := by
  unfold Handler.unref
  rw [counted]
  exact Word.sub_of_le positive bound

theorem sound_ref {valid null : Finset Nat} {next : Nat} (sound : Sound s) (placed : Placed valid null next)
    (more : valid.card = s.valid.card + 1) : Sound (refHandler { s with valid, null, nextRef := next }) := by
  have bound := placed.bound
  refine ⟨placed, fun x now => ?_, sound.unrefs, fun x now counted => ?_⟩
  · obtain ⟨y, before, rfl⟩ := Option.map_eq_some_iff.mp now
    show y.ref.id < s.nextHandler
    rw [Handler.ref_id]
    exact sound.stored y before
  · obtain ⟨y, before, rfl⟩ := Option.map_eq_some_iff.mp now
    rw [Handler.ref_type] at counted
    obtain ⟨same, never⟩ := sound.exactly y before counted
    rw [Handler.ref_id, ref_counter counted (by omega)]
    exact ⟨show y.counter + 1 = valid.card by omega, never⟩

theorem sound_moved {valid null : Finset Nat} {next : Nat} (sound : Sound s) (placed : Placed valid null next)
    (same : valid.card = s.valid.card) : Sound { s with valid, null, nextRef := next } := by
  refine ⟨placed, sound.stored, sound.unrefs, fun x now counted => ?_⟩
  obtain ⟨counter, never⟩ := sound.exactly x now counted
  exact ⟨counter.trans same.symm, never⟩

theorem sound_unref (sound : Sound s) (here : r ∈ s.valid) :
    Sound (unrefHandler { s with valid := s.valid.erase r, null := insert r s.null }) := by
  have positive := Finset.card_pos.mpr ⟨r, here⟩
  have less := Finset.card_erase_of_mem here
  have bound := sound.placed.bound
  have placed := sound.placed.invalidate here
  unfold unrefHandler
  split
  case h_1 x stored =>
    refine ⟨placed, fun y now => ?_, fun h n member => ?_, fun y now counted => ?_⟩
    · obtain rfl := Option.some.inj now
      rw [Handler.unref_id]
      exact sound.stored x stored
    · rcases List.mem_append.mp member with old | new
      · exact sound.unrefs h n old
      · obtain ⟨rfl, _⟩ := Action.unref.inj (List.mem_singleton.mp new)
        exact sound.stored x stored
    · obtain rfl := Option.some.inj now
      rw [Handler.unref_type] at counted
      obtain ⟨same, never⟩ := sound.exactly x stored counted
      rw [Handler.unref_id, unref_counter counted (by omega) (by omega)]
      refine ⟨show x.counter - 1 = (s.valid.erase r).card by omega, fun member => ?_⟩
      rcases List.mem_append.mp member with old | new
      · exact never old
      · have zero := (Action.unref.inj (List.mem_singleton.mp new)).2
        omega
  case h_2 empty =>
    refine ⟨placed, sound.stored, sound.unrefs, fun x now => ?_⟩
    cases empty.symm.trans now

/-! ### The operations on references -/

theorem sound_newRef (sound : Sound s) (room : hasRoom s = true) : Sound (newRef s) :=
  sound_ref sound (sound.placed.more (room_lt room)) (Finset.card_insert_of_notMem sound.placed.fresh.1)

theorem sound_newNull (sound : Sound s) (room : hasRoom s = true) :
    Sound { s with null := insert s.nextRef s.null, nextRef := s.nextRef + 1 } :=
  sound_moved sound (sound.placed.moreNull (room_lt room)) rfl

theorem sound_copyRef (sound : Sound s) (room : hasRoom s = true) (r : Nat) : Sound (copyRef s r) := by
  unfold copyRef
  split
  · exact sound_newRef sound room
  · exact sound_newNull sound room

theorem sound_moveRef (sound : Sound s) (room : hasRoom s = true) (r : Nat) : Sound (moveRef s r) := by
  have room' := room_lt room
  unfold moveRef
  split
  case isTrue here =>
    have gone := sound.placed.invalidate here
    have positive := Finset.card_pos.mpr ⟨r, here⟩
    have less := Finset.card_erase_of_mem here
    have more := Finset.card_insert_of_notMem (sound.placed.apart r here)
    have taken := Finset.card_insert_of_notMem gone.fresh.1
    exact sound_moved sound (gone.more (by omega)) (by omega)
  case isFalse => exact sound_newNull sound room

theorem sound_clearRef (sound : Sound s) (a : Nat) : Sound (clearRef s a) := by
  unfold clearRef
  split
  case isTrue here => exact sound_unref sound here
  case isFalse => exact sound

theorem unrefHandler_refs (s : State) :
    (unrefHandler s).valid = s.valid ∧ (unrefHandler s).null = s.null ∧ (unrefHandler s).nextRef = s.nextRef := by
  unfold unrefHandler
  split <;> exact ⟨rfl, rfl, rfl⟩

theorem clearRef_null {a : Nat} (live : isLive s a = true) : a ∈ (clearRef s a).null := by
  have either : a ∈ s.valid ∨ a ∈ s.null := by simpa [isLive] using live
  unfold clearRef
  split
  case isTrue =>
    rw [(unrefHandler_refs _).2.1]
    exact Finset.mem_insert_self _ _
  case isFalse invalid => exact either.resolve_left invalid

theorem sound_copyAssign (sound : Sound s) {a : Nat} (live : isLive s a = true) (b : Nat) :
    Sound (copyAssign s a b) := by
  unfold copyAssign
  split
  · exact sound
  · have cleared := sound_clearRef sound a
    have here := clearRef_null live
    dsimp only
    split
    · have absent : a ∉ (clearRef s a).valid := fun member => cleared.placed.apart a member here
      exact sound_ref cleared (cleared.placed.validate here) (Finset.card_insert_of_notMem absent)
    · exact cleared

theorem sound_moveAssign (sound : Sound s) {a : Nat} (live : isLive s a = true) (b : Nat) :
    Sound (moveAssign s a b) := by
  unfold moveAssign
  split
  · exact sound
  case isFalse different =>
    have cleared := sound_clearRef sound a
    have here := clearRef_null live
    dsimp only
    split
    case isTrue source =>
      have absent : a ∉ (clearRef s a).valid.erase b := by
        intro member
        exact cleared.placed.apart a (Finset.mem_of_mem_erase member) here
      have placed := (cleared.placed.invalidate source).validate (Finset.mem_insert_of_mem here)
      rw [Finset.erase_insert_of_ne (Ne.symm different)] at placed
      have positive := Finset.card_pos.mpr ⟨b, source⟩
      have less := Finset.card_erase_of_mem source
      have same := Finset.card_insert_of_notMem absent
      exact sound_moved cleared placed (by omega)
    case isFalse => exact cleared

theorem sound_dropRef (sound : Sound s) (r : Nat) : Sound (dropRef s r) := by
  have cleared := sound_clearRef sound r
  exact sound_moved cleared (cleared.placed.forget r) rfl

/-! ### Calls that leave the references alone -/

def Action.unrefs : Action → Bool
  | .unref _ _ => true
  | _ => false

/-- The handler stays, and no reference changes. -/
structure Unmoved (s s' : State) : Prop where
  handler : s'.mHandler.map (fun x => (x.id, x.type, x.counter)) = s.mHandler.map fun x => (x.id, x.type, x.counter)
  valid : s'.valid = s.valid
  null : s'.null = s.null
  nextRef : s'.nextRef = s.nextRef
  nextHandler : s'.nextHandler = s.nextHandler
  log : ∃ more, s'.log = s.log ++ more ∧ ∀ a ∈ more, a.unrefs = false

namespace Unmoved

theorem refl (s : State) : Unmoved s s := ⟨rfl, rfl, rfl, rfl, rfl, [], by simp⟩

theorem trans {s₁ s₂ s₃ : State} (first : Unmoved s₁ s₂) (second : Unmoved s₂ s₃) : Unmoved s₁ s₃ := by
  obtain ⟨more, log, silent⟩ := first.log
  obtain ⟨rest, log', silent'⟩ := second.log
  refine ⟨second.handler.trans first.handler, second.valid.trans first.valid, second.null.trans first.null,
    second.nextRef.trans first.nextRef, second.nextHandler.trans first.nextHandler, more ++ rest, ?_,
    fun a member => ?_⟩
  · rw [log', log, List.append_assoc]
  · exact (List.mem_append.mp member).elim (silent a) (silent' a)

theorem stored (unmoved : Unmoved s s') {x : Handler} (now : s'.mHandler = some x) :
    ∃ y, s.mHandler = some y ∧ y.id = x.id ∧ y.type = x.type ∧ y.counter = x.counter := by
  have same := unmoved.handler
  rw [now] at same
  obtain ⟨y, before, same⟩ := Option.map_eq_some_iff.mp same.symm
  obtain ⟨id, same⟩ := Prod.mk.inj same
  obtain ⟨type, counter⟩ := Prod.mk.inj same
  exact ⟨y, before, id, type, counter⟩

theorem unref_mem (unmoved : Unmoved s s') {h n : Nat} (member : .unref h n ∈ s'.log) : .unref h n ∈ s.log := by
  obtain ⟨more, same, silent⟩ := unmoved.log
  rw [same] at member
  rcases List.mem_append.mp member with old | new
  · exact old
  · cases silent _ new

theorem sound (unmoved : Unmoved s s') (sound : Sound s) : Sound s' := by
  refine ⟨?_, fun x now => ?_, fun h n member => ?_, fun x now counted => ?_⟩
  · rw [unmoved.valid, unmoved.null, unmoved.nextRef]
    exact sound.placed
  · obtain ⟨y, before, same, _⟩ := unmoved.stored now
    rw [unmoved.nextHandler, ← same]
    exact sound.stored y before
  · rw [unmoved.nextHandler]
    exact sound.unrefs h n (unmoved.unref_mem member)
  · obtain ⟨y, before, id, type, counter⟩ := unmoved.stored now
    obtain ⟨same, never⟩ := sound.exactly y before (type.trans counted)
    rw [unmoved.valid, ← id, ← counter]
    exact ⟨same, fun member => never (unmoved.unref_mem member)⟩

end Unmoved

theorem unmoved_of_same (handler : s'.mHandler = s.mHandler) (valid : s'.valid = s.valid) (null : s'.null = s.null)
    (nextRef : s'.nextRef = s.nextRef) (nextHandler : s'.nextHandler = s.nextHandler)
    (log : ∃ more, s'.log = s.log ++ more ∧ ∀ a ∈ more, a.unrefs = false) : Unmoved s s' :=
  ⟨by rw [handler], valid, null, nextRef, nextHandler, log⟩

theorem unmoved_returned (s : State) (result : Result) : Unmoved s { s with returned := result } :=
  unmoved_of_same rfl rfl rfl rfl rfl ⟨[], by simp⟩

theorem unmoved_requested (s : State) : Unmoved s { s with mStop := { s.mStop with requested := true } } :=
  unmoved_of_same rfl rfl rfl rfl rfl ⟨[], by simp⟩

theorem unmoved_requestStop (s : State) : Unmoved s (requestStop s) :=
  unmoved_of_same rfl rfl rfl rfl rfl ⟨_, rfl, by simp [Action.unrefs]⟩

theorem unmoved_initContext (s : State) (r : Int) : Unmoved s (initContext s r).1 := by
  unfold initContext
  split
  · exact .refl s
  · refine unmoved_of_same rfl rfl rfl rfl rfl ⟨_, List.append_assoc .., ?_⟩
    cases s.mUsbCtx <;> simp [Action.unrefs]

theorem unmoved_stopHandler (h : stopHandler s = some s') : Unmoved s s' := by
  obtain ⟨_, rfl⟩ | ⟨x, stored, _, rfl⟩ := stopHandler_cases h
  · exact .refl s'
  · exact ⟨by simp [stored], rfl, rfl, rfl, rfl, _, rfl, by simp [Action.unrefs]⟩

theorem unmoved_shutdown (h : shutdown s = some s') : Unmoved s s' :=
  (unmoved_requested s).trans (unmoved_stopHandler h)

theorem unmoved_start (s : State) (launch : Launch) : Unmoved s (start s launch).1 := by
  rcases start_cases s launch with same | ⟨_, x, stored, same | same⟩
  · rw [same]
    exact .refl s
  · rw [same]
    exact ⟨rfl, rfl, rfl, rfl, rfl, _, rfl, by simp [Action.unrefs]⟩
  · rw [same]
    exact ⟨by simp [stored], rfl, rfl, rfl, rfl, _, rfl, by simp [Action.unrefs]⟩

/-! ### Another handler -/

/-- The handler was destroyed, and when `built` another one stored. -/
structure Emplaced (s : State) (type : HandlerType) (built : Bool) (s' : State) : Prop where
  handler : s'.mHandler = if built then some { id := s.nextHandler, type } else none
  valid : s'.valid = s.valid
  null : s'.null = s.null
  nextRef : s'.nextRef = s.nextRef
  nextHandler : s'.nextHandler = if built then s.nextHandler + 1 else s.nextHandler
  log : ∃ more, s'.log = s.log ++ more ∧ ∀ a ∈ more, a.unrefs = false

theorem emplaced_emplace (s : State) (type : HandlerType) (built : Bool) :
    Emplaced s type built (emplace s type built) := by
  unfold emplace destroyHandler
  cases built <;> split <;>
    exact ⟨by simp_all, rfl, rfl, rfl, rfl, _, by simp [List.append_assoc]; rfl, by simp [Action.unrefs]⟩

theorem Unmoved.emplaced {t : State} (unmoved : Unmoved s t) (emplaced : Emplaced t type built s') :
    Emplaced s type built s' := by
  obtain ⟨more, log, silent⟩ := unmoved.log
  obtain ⟨rest, log', silent'⟩ := emplaced.log
  refine ⟨?_, emplaced.valid.trans unmoved.valid, emplaced.null.trans unmoved.null,
    emplaced.nextRef.trans unmoved.nextRef, ?_, more ++ rest, ?_, fun a member => ?_⟩
  · rw [emplaced.handler, unmoved.nextHandler]
  · rw [emplaced.nextHandler, unmoved.nextHandler]
  · rw [log', log, List.append_assoc]
  · exact (List.mem_append.mp member).elim (silent a) (silent' a)

theorem emplaced_emplaceHandler (h : emplaceHandler s type built = some s') : Emplaced s type built s' := by
  unfold emplaceHandler at h
  split at h
  · split at h
    · cases h
    · rename_i t stopped
      obtain rfl := Option.some.inj h
      have reset : Unmoved t { t with mStop := ⟨t.nextSource, false⟩, nextSource := t.nextSource + 1 } :=
        unmoved_of_same rfl rfl rfl rfl rfl ⟨[], by simp⟩
      apply ((unmoved_requested s).trans (unmoved_stopHandler stopped)).emplaced
      exact reset.emplaced (emplaced_emplace _ type built)
  · obtain rfl := Option.some.inj h
    exact emplaced_emplace s type built

/-- The new handler starts at zero, so it counts exactly when no reference is valid. -/
theorem Emplaced.sound (emplaced : Emplaced s type built s') (sound : Sound s)
    (alone : built = true → type = .refcounted → s.valid = ∅) : Sound s' := by
  obtain ⟨more, log, silent⟩ := emplaced.log
  have unref_mem : ∀ {h n}, .unref h n ∈ s'.log → h < s.nextHandler := by
    intro h n member
    rw [log] at member
    rcases List.mem_append.mp member with old | new
    · exact sound.unrefs h n old
    · cases silent _ new
  have handler := emplaced.handler
  have next := emplaced.nextHandler
  cases built with
  | false =>
    have empty : ∀ x, s'.mHandler ≠ some x := by simp [handler]
    refine ⟨?_, fun x now => absurd now (empty x), fun h n member => ?_, fun x now => absurd now (empty x)⟩
    · rw [emplaced.valid, emplaced.null, emplaced.nextRef]
      exact sound.placed
    · rw [next]
      exact unref_mem member
  | true =>
    refine ⟨?_, fun x now => ?_, fun h n member => ?_, fun x now counted => ?_⟩
    · rw [emplaced.valid, emplaced.null, emplaced.nextRef]
      exact sound.placed
    · obtain rfl := Option.some.inj (handler.symm.trans now)
      rw [next]
      exact Nat.lt_succ_self _
    · rw [next]
      exact Nat.lt_succ_of_lt (unref_mem member)
    · obtain rfl := Option.some.inj (handler.symm.trans now)
      rw [emplaced.valid, alone rfl counted]
      exact ⟨rfl, fun member => lt_irrefl _ (unref_mem member)⟩

/-! ### A counter that lags -/

/-- The stored counter is `c`, and `k` more references are valid. -/
def Lags (s : State) (c k : Nat) : Prop :=
  ∃ x, s.mHandler = some x ∧ x.type = .refcounted ∧ x.counter = c ∧ s.valid.card = c + k

variable {c k : Nat}

theorem Lags.exactly (lags : Lags s c k) (exactly : CountsExactly s) : k = 0 := by
  obtain ⟨x, stored, counted, counter, card⟩ := lags
  have same := (exactly x stored counted).1
  omega

theorem Emplaced.lags (emplaced : Emplaced s .refcounted true s') : Lags s' 0 s.valid.card :=
  ⟨_, emplaced.handler, rfl, rfl, by rw [emplaced.valid, Nat.zero_add]⟩

theorem Unmoved.lags (unmoved : Unmoved s s') (lags : Lags s c k) : Lags s' c k := by
  obtain ⟨x, stored, counted, counter, card⟩ := lags
  have same := unmoved.handler
  rw [stored] at same
  obtain ⟨y, now, same⟩ := Option.map_eq_some_iff.mp same
  obtain ⟨_, same⟩ := Prod.mk.inj same
  obtain ⟨type, same⟩ := Prod.mk.inj same
  exact ⟨y, now, type.trans counted, same.trans counter, by rw [unmoved.valid, card]⟩

theorem lags_newRef (lags : Lags s c k) (placed : Placed s.valid s.null s.nextRef) (room : hasRoom s = true) :
    Lags (newRef s) (c + 1) k := by
  obtain ⟨x, stored, counted, counter, card⟩ := lags
  have room := room_lt room
  have more := Finset.card_insert_of_notMem placed.fresh.1
  refine ⟨x.ref, by simp [newRef, refHandler, stored], (Handler.ref_type x).trans counted, ?_, ?_⟩
  · rw [ref_counter counted (by omega), counter]
  · show (insert s.nextRef s.valid).card = c + 1 + k
    omega

theorem lags_dropRef (lags : Lags s (c + 1) k) (here : r ∈ s.valid) (bound : s.valid.card < 2 ^ 64) :
    Lags (dropRef s r) c k := by
  obtain ⟨x, stored, counted, counter, card⟩ := lags
  have less := Finset.card_erase_of_mem here
  have same : clearRef s r = unrefHandler { s with valid := s.valid.erase r, null := insert r s.null } := if_pos here
  refine ⟨x.unref, ?_, (Handler.unref_type x).trans counted, ?_, ?_⟩
  · show (clearRef s r).mHandler = some x.unref
    rw [same]
    simp [unrefHandler, stored]
  · rw [unref_counter counted (by omega) (by omega)]
    omega
  · show (clearRef s r).valid.card = c + k
    rw [same, (unrefHandler_refs _).1]
    show (s.valid.erase r).card = c + k
    omega

theorem Emplaced.room (emplaced : Emplaced s type built s') (room : hasRoom s = true) : hasRoom s' = true := by
  unfold hasRoom
  rw [emplaced.valid, emplaced.null]
  exact room

theorem Emplaced.placed (emplaced : Emplaced s type built s') (sound : Sound s) :
    Placed s'.valid s'.null s'.nextRef := by
  rw [emplaced.valid, emplaced.null, emplaced.nextRef]
  exact sound.placed

/-! ### Runs -/

theorem emplaceHandler_counts (sound : Sound s) (room : hasRoom s = true) {t : State}
    (h : emplaceHandler s type true = some t) :
    (CountsExactly (newRef t) → type = .refcounted → s.valid = ∅) ∧
      ((type = .refcounted → s.valid = ∅) → Sound (newRef t)) := by
  have emplaced := emplaced_emplaceHandler h
  refine ⟨fun exactly counted => ?_, fun alone => ?_⟩
  · subst counted
    have lags := lags_newRef emplaced.lags (emplaced.placed sound) (emplaced.room room)
    exact Finset.card_eq_zero.mp (lags.exactly exactly)
  · exact sound_newRef (emplaced.sound sound fun _ => alone) (emplaced.room room)

theorem emplaceAndStart_counts {result : Result} (sound : Sound s) (room : hasRoom s = true)
    (h : emplaceAndStart s type built launch result = some s') :
    (CountsExactly s' → built = true → type = .refcounted → s.valid = ∅) ∧
      ((built = true → type = .refcounted → s.valid = ∅) → Sound s') := by
  unfold emplaceAndStart at h
  split at h
  · cases h
  · rename_i t called
    have emplaced := emplaced_emplaceHandler called
    have placed := emplaced.placed sound
    have room' := emplaced.room room
    cases built with
    | false =>
      obtain rfl := Option.some.inj h
      exact ⟨fun _ never => absurd never (by simp),
        fun _ => (unmoved_returned t .threw).sound (emplaced.sound sound (by simp))⟩
    | true =>
      have rest : Unmoved (dropRef (newRef t) t.nextRef) s' := by
        have started := unmoved_start (dropRef (newRef t) t.nextRef) launch
        rw [if_pos rfl] at h
        split at h
        all_goals
          rename_i launched
          rw [launched] at started
          exact Option.some.inj h ▸ started.trans (unmoved_returned _ _)
      refine ⟨fun exactly _ counted => ?_, fun alone => ?_⟩
      · subst counted
        have bound := (placed.more (room_lt room')).bound
        have dropped := lags_dropRef (lags_newRef emplaced.lags placed room') (Finset.mem_insert_self _ _)
          (lt_of_le_of_lt (Nat.le_add_right _ _) bound)
        exact Finset.card_eq_zero.mp ((rest.lags dropped).exactly exactly)
      · exact rest.sound (sound_dropRef (sound_newRef (emplaced.sound sound alone) room') _)

theorem makeContext_counts {r : Int} {result failure : Result} (sound : Sound s) (room : hasRoom s = true)
    (h : (match initContext s r with
      | (s, ec) =>
        if ec.isError then some { s with returned := failure } else emplaceAndStart s type built launch result) =
      some s') :
    (CountsExactly s' → r = 0 → built = true → type = .refcounted → s.valid = ∅) ∧
      ((r = 0 → built = true → type = .refcounted → s.valid = ∅) → Sound s') := by
  have unmoved := unmoved_initContext s r
  by_cases done : r = 0
  · subst done
    rw [show initContext s 0 = ((initContext s 0).1, {}) from rfl] at h
    have room' : hasRoom (initContext s 0).1 = true := by
      unfold hasRoom
      rw [unmoved.valid, unmoved.null]
      exact room
    obtain ⟨needs, keeps⟩ := emplaceAndStart_counts (unmoved.sound sound) room' h
    rw [unmoved.valid] at needs keeps
    exact ⟨fun exactly _ => needs exactly, fun alone => keeps (alone rfl)⟩
  · rw [initContext_failed done] at h
    dsimp only at h
    rw [if_pos (by simpa using done)] at h
    obtain rfl := Option.some.inj h
    exact ⟨fun _ ok => absurd ok done, fun _ => (unmoved_returned s failure).sound sound⟩

theorem call_counts (sound : Sound s) (h : call s e = some s') :
    (CountsExactly s' → EmplacesAlone s e) ∧ (EmplacesAlone s e → Sound s') := by
  have kept : ∀ {t result}, emplacesCounted s e = false → Sound t → { t with returned := result } = s' →
      (CountsExactly s' → EmplacesAlone s e) ∧ (EmplacesAlone s e → Sound s') := by
    rintro t result none sound rfl
    refine ⟨fun _ stores => ?_, fun _ => (unmoved_returned t result).sound sound⟩
    cases none.symm.trans stores
  cases e with
  | initContext r => exact kept rfl ((unmoved_initContext s r).sound sound) (Option.some.inj h)
  | emplaceHandler type built =>
    simp only [call, Option.ite_none_right_eq_some, Option.map_eq_some_iff] at h
    obtain ⟨room, t, called, rfl⟩ := h
    cases built with
    | false =>
      exact kept (by simp [emplacesCounted]) ((emplaced_emplaceHandler called).sound sound (by simp)) rfl
    | true =>
      obtain ⟨needs, keeps⟩ := emplaceHandler_counts sound room called
      have stores : EmplacesAlone s (.emplaceHandler type true) ↔ (type = .refcounted → s.valid = ∅) := by
        simp [EmplacesAlone, emplacesCounted]
      rw [stores]
      exact ⟨needs, fun alone => (unmoved_returned _ _).sound (keeps alone)⟩
  | start launch =>
    have unmoved := unmoved_start s launch
    simp only [call] at h
    split at h
    all_goals
      rename_i launched
      rw [launched] at unmoved
      exact kept rfl (unmoved.sound sound) (Option.some.inj h)
  | requestStop => exact kept rfl ((unmoved_requestStop s).sound sound) (Option.some.inj h)
  | shutdown =>
    obtain ⟨t, stopped, same⟩ := Option.map_eq_some_iff.mp h
    exact kept rfl ((unmoved_shutdown stopped).sound sound) same
  | destruct =>
    simp only [call, destruct, Option.map_map, Option.map_eq_some_iff, Function.comp] at h
    obtain ⟨t, stopped, same⟩ := h
    have exited : Unmoved t { t with alive := false, log := t.log ++ [.exit t.mUsbCtx] } :=
      ⟨rfl, rfl, rfl, rfl, rfl, _, rfl, by simp [Action.unrefs]⟩
    have destroyed := ((unmoved_shutdown stopped).trans exited).emplaced (emplaced_emplace _ .trivial false)
    exact kept rfl (destroyed.sound sound (by simp)) same
  | makeContext r type built launch =>
    simp only [call, Option.ite_none_right_eq_some] at h
    obtain ⟨needs, keeps⟩ := makeContext_counts sound h.1 h.2
    have stores : EmplacesAlone s (.makeContext r type built launch) ↔
        (r = 0 → built = true → type = .refcounted → s.valid = ∅) := by
      simp only [EmplacesAlone, emplacesCounted, Bool.and_eq_true, beq_iff_eq]
      tauto
    rw [stores]
    exact ⟨needs, keeps⟩
  | getHandlerService r built launch =>
    simp only [call, getHandlerService, Option.ite_none_right_eq_some] at h
    obtain ⟨room, h⟩ := h
    split at h
    case isTrue started => exact kept (by simp [emplacesCounted, started]) sound (Option.some.inj h)
    case isFalse idle =>
      obtain ⟨needs, keeps⟩ := makeContext_counts sound room h
      have stores : EmplacesAlone s (.getHandlerService r built launch) ↔
          (r = 0 → built = true → HandlerType.refcounted = .refcounted → s.valid = ∅) := by
        simp only [EmplacesAlone, emplacesCounted, Bool.and_eq_true, beq_iff_eq]
        simp [idle]
      rw [stores]
      exact ⟨needs, keeps⟩
  | handler =>
    simp only [call, Option.ite_none_right_eq_some] at h
    exact kept rfl (sound_newRef sound h.1) (Option.some.inj h.2)
  | copy r =>
    simp only [call, Option.ite_none_right_eq_some, Bool.and_eq_true] at h
    exact kept rfl (sound_copyRef sound h.1.2 r) (Option.some.inj h.2)
  | move r =>
    simp only [call, Option.ite_none_right_eq_some, Bool.and_eq_true] at h
    exact kept rfl (sound_moveRef sound h.1.2 r) (Option.some.inj h.2)
  | copyAssign a b =>
    simp only [call, Option.ite_none_right_eq_some, Bool.and_eq_true] at h
    exact kept rfl (sound_copyAssign sound h.1.1 b) (Option.some.inj h.2)
  | moveAssign a b =>
    simp only [call, Option.ite_none_right_eq_some, Bool.and_eq_true] at h
    exact kept rfl (sound_moveAssign sound h.1.1 b) (Option.some.inj h.2)
  | drop r =>
    simp only [call, Option.ite_none_right_eq_some] at h
    exact kept rfl (sound_dropRef sound r) (Option.some.inj h.2)

theorem sound_initial : Sound {} :=
  ⟨⟨by simp, by simp, by simp, by decide⟩, by simp, by simp, fun x stored => by cases stored⟩

/-- All along a run the stored counter is the number of valid references and is never decremented at zero
exactly when every `refcounted_event_handler` was stored while no reference was valid. -/
theorem counts_run_iff (h : machine.run {} es = some s) :
    (∀ fs u, fs <+: es → machine.run {} fs = some u → CountsExactly u) ↔ machine.Meets EmplacesAlone {} es := by
  refine Machine.forall_prefix_iff (I := Sound) Sound.exactly ?_ sound_initial h
  intro s e s' sound step
  exact call_counts sound (step_call step).2

theorem counts_run_iff_replaced : ∃ s,
    machine.run {} [.emplaceHandler .refcounted true, .drop 0, .emplaceHandler .refcounted true, .copy 1] = some s ∧
    ∀ fs u, fs <+: [.emplaceHandler .refcounted true, .drop 0, .emplaceHandler .refcounted true, .copy 1] →
      machine.run {} fs = some u → CountsExactly u := by
  have h : ∃ s, machine.run {} [.emplaceHandler .refcounted true, .drop 0, .emplaceHandler .refcounted true, .copy 1] =
      some s := ⟨_, rfl⟩
  obtain ⟨s, h⟩ := h
  exact ⟨s, h, (counts_run_iff h).mpr (by decide)⟩

/-- A reference to a trivial handler is given back to the counted one that replaced it. -/
theorem counter_wraps : ∃ s, machine.run {}
      [.emplaceHandler .trivial true, .emplaceHandler .refcounted true, .drop 0, .drop 1] = some s ∧
    s.valid = ∅ ∧ s.mHandler.map Handler.counter = some (2 ^ 64 - 1) ∧ .unref 1 0 ∈ s.log ∧ ¬ CountsExactly s := by
  refine ⟨_, rfl, by decide, by decide, by decide, fun exactly => ?_⟩
  have wrapped := (exactly _ rfl rfl).1
  revert wrapped
  decide

end CoUsb.Ev

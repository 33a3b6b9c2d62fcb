import CoUsb.Wrapper.Nesting

/-!
# Calls with open handles

While the handles stay below the claims made with them, every call is made with an open handle, however the blocks end;
where one does not, ending all blocks makes a call with a handle that is not.
-/

namespace CoUsb.Scope

open Slots

variable {objects : List Object} {log : List Call} {op : Operation} {done : Done} {s t : State} {e : Event}
  {es : List Event} {object : Object} {h i : Nat}

/-! ### Calls with open handles -/

/-- What an object has a handle for is open. -/
theorem Kept.usable (kept : Kept s) (nested : Nested s.objects s.log) (here : s.objects[i]? = some object)
    (has : object.devh = some h) : Open s.log h := by
  cases object with
  | handle mStorage => exact (kept.owned ((look_of here).trans has)).1
  | guard k _ this => exact kept.stands (nested i h ((look_of here).trans has))

/-- A call for a handle that is there, which is made with it. -/
theorem toList_map_uses {f : Nat → Call} (devh : Option Nat) (uses : ∀ h, (f h).uses = some h) :
    (devh.toList.map f).length ≤ 1 ∧ ∀ c ∈ devh.toList.map f, c.uses = devh := by
  refine ⟨by cases devh <;> simp, fun c made => ?_⟩
  obtain ⟨h, held, rfl⟩ := List.mem_map.mp made
  exact (uses h).trans (Option.mem_toList.mp held).symm

theorem undoing_uses (k : Guard.Class) (this : Guard) (r : Int) :
    (undoing k this r).length ≤ 1 ∧ ∀ c ∈ undoing k this r, c.uses = this.mDevh :=
  toList_map_uses this.mDevh fun _ => rfl

/-- A destructor makes at most one call, with the handle of its object. -/
theorem undone_uses (object : Object) (r : Int) :
    (object.undone r).length ≤ 1 ∧ ∀ c ∈ object.undone r, c.uses = object.devh := by
  cases object with
  | handle mStorage => exact toList_map_uses mStorage fun _ => rfl
  | guard k _ this => exact undoing_uses k this r

/-- An operation makes at most one call, with the handle of an object there is. -/
theorem effect_uses {next : Nat} (effect : Effect objects next op done) : done.calls.length ≤ 1 ∧
    ∀ c ∈ done.calls, ∀ h, c.uses = some h → ∃ (i : Nat) (object : Object), objects[i]? = some object ∧
      object.devh = some h := by
  have through : ∀ {calls : List Call} {i : Nat} {object : Object}, objects[i]? = some object →
      (calls.length ≤ 1 ∧ ∀ c ∈ calls, c.uses = object.devh) → calls.length ≤ 1 ∧ ∀ c ∈ calls, ∀ h,
        c.uses = some h → ∃ (i : Nat) (object : Object), objects[i]? = some object ∧ object.devh = some h :=
    fun here ⟨one, uses⟩ => ⟨one, fun c made h used => ⟨_, _, here, (uses c made).symm.trans used⟩⟩
  have single : ∀ {c : Call} {devh : Option Nat}, c.uses = devh → [c].length ≤ 1 ∧ ∀ c' ∈ [c], c'.uses = devh :=
    fun uses => ⟨le_rfl, fun c' made => List.mem_singleton.mp made ▸ uses⟩
  cases effect with
  | opens =>
    refine ⟨le_rfl, fun c made h used => ?_⟩
    obtain rfl := List.mem_singleton.mp made
    cases used
  | openFails | moveHandle | moveGuard | assignSelf =>
    exact ⟨Nat.zero_le 1, fun _ made => (List.not_mem_nil made).elim⟩
  | acquires source held => exact through source (single held.symm)
  | acquireFails source => exact through source (single rfl)
  | assignHandle target => exact through target (toList_map_uses _ fun _ => rfl)
  | assignGuard target | assignThrows target => exact through target (undoing_uses ..)
  | reset here | release here => exact through here (toList_map_uses _ fun _ => rfl)
  | giveUp here => exact through here (undoing_uses ..)

/-! ### Every step -/

/-- An operation keeps the nesting; nothing is asked of the end of a block. -/
def Keeps (s : State) : Event → Prop
  | .operation op _ => KeepsNesting s.objects s.log op
  | .leave _ | .destroy _ _ | .proceed => True

structure Orderly (s : State) : Prop where
  kept : Kept s
  nested : Nested s.objects s.log
  clean : Clean s.log

theorem Orderly.initial : Orderly {} := by
  refine ⟨kept_initial, fun i h needed => ?_, Log.always_nil⟩
  cases needed

/-- Losing the last object takes no handle away from those before it. -/
theorem nested_dropped {rest : List Object} (nested : Nested (rest ++ [object]) log) (calls : List Call) :
    Nested rest (log ++ calls) := by
  intro i h needed
  have inside := lt_of_look needed
  have same : ∀ (f : Object → Option Nat) (j : Nat), j < rest.length → look f (rest ++ [object]) j = look f rest j := by
    intro f j lt
    rw [look_append, if_neg lt.ne]
  refine (nested i h ((same _ i inside).trans needed)).mono (fun j lt here => ?_) (List.mem_append_left _) le_rfl
  exact (same _ j (lt.trans inside)).symm.trans here

theorem orderly_step (orderly : Orderly s) (step : Step s e t) (keeps : Keeps s e) : Orderly t := by
  obtain ⟨kept, nested, clean⟩ := orderly
  have kept' := kept_step kept step
  cases step with
  | operation _ effect =>
    obtain ⟨one, uses⟩ := effect_uses effect
    refine ⟨kept', (nested_effect_iff kept nested effect).mpr keeps, ?_⟩
    refine (Log.always_append_of_le_one one).mpr ⟨clean, fun c made h used => ?_⟩
    obtain ⟨i, object, here, has⟩ := uses c made h used
    exact kept.usable nested here has
  | leave | proceed => exact ⟨kept', nested, clean⟩
  | @destroy r _ _ _ rest object _ last =>
    obtain ⟨one, uses⟩ := undone_uses object r
    refine ⟨kept', nested_dropped (last ▸ nested) _, ?_⟩
    refine (Log.always_append_of_le_one one).mpr ⟨clean, fun c made h used => ?_⟩
    have here : s.objects[rest.length]? = some object := by rw [last, List.getElem?_concat_length]
    exact kept.usable nested here ((uses c made).symm.trans used)

/-! ### Blocks that are left -/

def Event.ends : Event → Bool
  | .operation _ _ => false
  | .leave _ | .destroy _ _ | .proceed => true

/-- However the blocks end from here on, no call is made with a handle that is not open. -/
def EndsClean (s : State) : Prop := ∀ ds t, (∀ d ∈ ds, Event.ends d = true) → machine.run s ds = some t → Clean t.log

theorem Orderly.endsClean (orderly : Orderly s) : EndsClean s := by
  intro ds t ends run
  refine (Machine.run_invariant_of_meets (C := fun _ d => Event.ends d = true) ?_ orderly run ?_).clean
  · intro s d t orderly ending next
    refine orderly_step orderly (step_cases next) ?_
    cases d with
    | operation => cases ending
    | leave | destroy | proceed => trivial
  · intro fs d u ⟨rest, split⟩ _
    exact ends d (split ▸ by simp)

/-- An open handle was given out or an object keeps it. -/
theorem Kept.accounted (kept : Kept s) (opened : Open s.log h) :
    .gives h ∈ s.log ∨ ∃ i, look Object.keeps s.objects i = some h := by
  have acquired : Resource.handle h ∈ (account s).acquired := List.mem_filterMap.mpr ⟨_, opened.1, rfl⟩
  have once := kept.settled.once _ acquired
  by_cases released : Resource.handle h ∈ (account s).released
  · obtain ⟨c, member, same⟩ := List.mem_filterMap.mp released
    cases c with
    | close devh =>
      cases same
      exact absurd member opened.2
    | gives devh =>
      cases same
      exact .inl member
    | opens => cases same
    | guard k call =>
      obtain ⟨_, _, other⟩ := Option.map_eq_some_iff.mp same
      cases other
  · rw [List.count_eq_zero.mpr released] at once
    have designated : Resource.handle h ∈ (account s).designated := List.count_pos_iff.mp (by omega)
    obtain ⟨object, member, owns⟩ := List.mem_filterMap.mp designated
    obtain ⟨i, here⟩ := List.mem_iff_getElem?.mp member
    refine .inr ⟨i, (look_of here).trans ?_⟩
    cases object with
    | handle mStorage =>
      obtain ⟨devh, held, same⟩ := Option.map_eq_some_iff.mp owns
      cases same
      exact held
    | guard k _ this =>
      obtain ⟨_, _, other⟩ := Option.map_eq_some_iff.mp owns
      cases other

theorem destroys_one {rest : List Object} (leaving : s.phase = .leaving none 0) (last : s.objects = rest ++ [object]) :
    machine.step s (.destroy 0 0) = some ⟨rest, .leaving none 0, s.log ++ object.undone 0⟩ := by
  have silent : object.throws 0 = none := by cases object <;> simp [Object.throws]
  show step s (.destroy 0 0) = _
  simp [step, leaving, last, destroy_eq, silent, Phase.after]

/-- The objects behind the first `n` can be destroyed one after the other. -/
theorem destroys_down {n : Nat} (leaving : s.phase = .leaving none 0) (inside : n ≤ s.objects.length) :
    ∃ ds t, (∀ d ∈ ds, Event.ends d = true) ∧ machine.run s ds = some t ∧ t.phase = .leaving none 0 ∧
      t.objects = s.objects.take n ∧ ∀ h, .gives h ∈ t.log → .gives h ∈ s.log := by
  induction inside using Nat.decreasingInduction with
  | self => exact ⟨[], s, by simp, rfl, leaving, List.take_length.symm, fun _ => id⟩
  | of_succ n lt ih =>
    obtain ⟨ds, t, ends, run, at_phase, objects, given⟩ := ih
    have last : t.objects = s.objects.take n ++ [s.objects[n]] := objects.trans (List.take_succ_eq_append_getElem lt)
    refine ⟨ds ++ [.destroy 0 0], _, fun d member => ?_, Machine.run_concat.mpr ⟨t, run, destroys_one at_phase last⟩,
      rfl, rfl, fun h gives => given h ?_⟩
    · rcases List.mem_append.mp member with before | last
      · exact ends d before
      · exact List.mem_singleton.mp last ▸ rfl
    · refine (gives_append ?_).mp gives
      cases s.objects[n] with
      | handle => exact closing_silent
      | guard => exact undoing_silent

/-- A claim whose handle does not stand is undone, when all blocks end, with a handle that is not open. -/
theorem dangling_ends (kept : Kept s) (running : s.phase = .running) (fallen : ¬ Nested s.objects s.log) :
    ¬ EndsClean s := by
  intro clean
  simp only [Nested, not_forall] at fallen
  obtain ⟨i, h, needed, fallen⟩ := fallen
  obtain ⟨object, here, needs⟩ := Option.bind_eq_some_iff.mp needed
  obtain ⟨inside, found⟩ := List.getElem?_eq_some_iff.mp here
  let left : State := { s with phase := .leaving none 0 }
  have leave : machine.step s (.leave 0) = some left := by
    show step s (.leave 0) = some left
    simp [step, running, left]
  obtain ⟨ds, t, ends, down, at_phase, objects, given⟩ := destroys_down (s := left) rfl (Nat.succ_le_of_lt inside)
  have run : machine.run s (.leave 0 :: ds) = some t := Machine.run_cons.mpr ⟨left, leave, down⟩
  have kept' : Kept t := Machine.run_invariant (fun kept step => kept_step kept (step_cases step)) kept run
  have last : t.objects = s.objects.take i ++ [object] := by
    rw [objects, ← found]
    exact List.take_succ_eq_append_getElem inside
  have undone := clean (.leave 0 :: ds ++ [.destroy 0 0]) _ (fun d member => ?_)
    (Machine.run_concat.mpr ⟨t, run, destroys_one at_phase last⟩)
  · have used : Open t.log h := by
      cases object with
      | handle => cases needs
      | guard k _ this =>
        obtain ⟨mDevh, mInterfaceNum, claim⟩ := this
        obtain rfl : mDevh = some h := needs
        exact (Log.always_concat.mp undone).2 h rfl
    rcases kept'.accounted used with gives | ⟨j, keeps⟩
    · exact fallen (.inr (given h gives))
    · have bound := lt_of_look keeps
      rw [last, List.length_append, List.length_take_of_le inside.le, List.length_singleton] at bound
      rw [last, look_append, List.length_take_of_le inside.le] at keeps
      split at keeps
      case isTrue =>
        cases object with
        | handle => cases needs
        | guard => cases keeps
      case isFalse before =>
        have lt : j < i := by omega
        refine fallen (.inl ⟨j, lt, ?_⟩)
        rwa [look, List.getElem?_take_of_lt lt] at keeps
  · rcases List.mem_append.mp member with before | last
    · rcases List.mem_cons.mp before with rfl | later
      · rfl
      · exact ends d later
    · exact List.mem_singleton.mp last ▸ rfl

theorem keepsNesting_of_thrown {next : Nat} {ec : ErrorCode} (effect : Effect objects next op done)
    (thrown : done.thrown = some ec) : KeepsNesting objects log op := by
  cases effect with
  | openFails | acquireFails => trivial
  | assignThrows target source apart failed held =>
    exact (keepsNesting_guards_iff target source apart).mpr fun _ _ => .inl ⟨failed, held⟩
  | opens | acquires | moveHandle | moveGuard | assignSelf | assignHandle | assignGuard | reset | release | giveUp =>
    cases thrown

theorem keeps_of_endsClean (orderly : Orderly s) (step : Step s e t) (clean : EndsClean t) : Keeps s e := by
  have kept' := kept_step orderly.kept step
  cases step with
  | leave | destroy | proceed => trivial
  | @operation op handler done phase running effect next =>
    cases thrown : done.thrown with
    | some ec => exact keepsNesting_of_thrown effect thrown
    | none =>
      rw [thrown] at next
      have same := nested_effect_iff orderly.kept orderly.nested effect
      by_contra loses
      exact dangling_ends kept' next (fun nested => loses (same.mp nested)) clean

/-- All along a run every end of the blocks is clean, so that no claim is made or undone with a handle that is not open,
exactly when each operation keeps the handles below the claims that are made with them. -/
theorem handles_outlive_claims (run : machine.run {} es = some s) :
    (∀ fs u, fs <+: es → machine.run {} fs = some u → EndsClean u) ↔ machine.Meets Keeps {} es :=
  Machine.forall_prefix_iff Orderly.endsClean
    (fun orderly next => ⟨keeps_of_endsClean orderly (step_cases next), orderly_step orderly (step_cases next)⟩)
    Orderly.initial run

/-- An interface is claimed; its release fails, and the exception destroys the handle and leaves the block. -/
theorem handles_outlive_claims_failing : ∃ es s, machine.run {} es = some s ∧
      s.phase = .leaving (some (makeUsbErrorCode (-4))) 0 ∧
    ∀ fs u, fs <+: es → machine.run {} fs = some u → EndsClean u := by
  refine ⟨[.operation (.openDevice .asException 0) 0, .operation (.acquire .interface .asException 0 1 0) 0, .leave 0,
    .destroy (-4) 0, .destroy 0 0], _, rfl, rfl, (handles_outlive_claims rfl).mpr (Machine.meets_of_forall ?_)⟩
  simp [Keeps, KeepsNesting]

end CoUsb.Scope

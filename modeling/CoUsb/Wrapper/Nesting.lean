import CoUsb.Lib.Slots
import CoUsb.Wrapper.Settlement

/-!
# Claims within the life of their handles

`interface` and `driver_guard` hold a plain pointer. Blocks destroy them before the handle they were made from as long
as the objects stand in the order handle, claim; moves can change that.
-/

namespace CoUsb.Scope

open Slots

variable {objects objects' : List Object} {calls log : List Call} {op : Operation} {done : Done} {s s' t : State}
  {e : Event} {es : List Event} {r : Int} {k : Guard.Class} {this : Guard} {object : Object}
  {wrapped at_a at_b : Bool} {h i j : Nat}

/-! ### Who has which handle -/

/-- The handle a `device_handle` keeps open. -/
def Object.keeps : Object → Option Nat
  | .handle mStorage => mStorage
  | .guard _ _ _ => none

/-- The handle an `interface` or a `driver_guard` is going to use. -/
def Object.needs : Object → Option Nat
  | .handle _ => none
  | .guard _ _ this => this.mDevh

/-- Handle `h` is going to be open for an object at `i` until that is destroyed. -/
def Stands (objects : List Object) (log : List Call) (i h : Nat) : Prop :=
  (∃ j < i, look Object.keeps objects j = some h) ∨ .gives h ∈ log

def Nested (objects : List Object) (log : List Call) : Prop :=
  ∀ i h, look Object.needs objects i = some h → Stands objects log i h

/-- The operation closes and moves no handle away from under the claims made through it. -/
def KeepsNesting (objects : List Object) (log : List Call) : Operation → Prop
  | .moveConstruct i _ | .reset i =>
    ∀ h, look Object.keeps objects i = some h → ∀ j, look Object.needs objects j ≠ some h
  | .moveAssign a b r => a ≠ b →
    (∀ h, look Object.keeps objects a = some h → ∀ j, look Object.needs objects j ≠ some h) ∧
    (∀ h, look Object.keeps objects b = some h → ∀ j, look Object.needs objects j = some h → a < j) ∧
    (∀ h, look Object.needs objects b = some h → (r ≠ 0 ∧ look Object.needs objects a ≠ none) ∨ Stands objects log a h)
  | .openDevice _ _ | .acquire _ _ _ _ _ | .release _ | .giveUp _ _ => True

/-- The handle a call is made with, which has to be open. -/
def Call.uses : Call → Option Nat
  | .opens _ => none
  | .close devh | .gives devh => some devh
  | .guard _ call => call.devh

def Open (log : List Call) (h : Nat) : Prop := .opens h ∈ log ∧ .close h ∉ log

/-- No call is made with a handle that is not open. -/
def Clean (log : List Call) : Prop := Log.Always (fun before c => ∀ h, c.uses = some h → Open before h) log

/-! ### Open handles -/

theorem owns_of_keeps (kept : look Object.keeps objects i = some h) :
    ∃ object, objects[i]? = some object ∧ object.owns = some (.handle h) := by
  obtain ⟨object, here, keeps⟩ := Option.bind_eq_some_iff.mp kept
  refine ⟨object, here, ?_⟩
  cases object with
  | handle mStorage =>
    obtain rfl : mStorage = some h := keeps
    rfl
  | guard => cases keeps

theorem opens_of_acquires {c : Call} (made : c.acquires = some (.handle h)) : c = .opens h := by
  cases c with
  | opens devh => cases made; rfl
  | close | gives => cases made
  | guard k call =>
    obtain ⟨_, _, same⟩ := Option.map_eq_some_iff.mp made
    cases same

/-- A handle that was released or is owned was opened. -/
theorem Kept.opened (kept : Kept s) (there : .handle h ∈ (account s).released ++ (account s).designated) :
    .opens h ∈ s.log := by
  obtain ⟨c, member, made⟩ := List.mem_filterMap.mp (kept.settled.nothingElse _ there)
  exact opens_of_acquires made ▸ member

/-- A handle that is owned is open, and only one object owns it. -/
theorem Kept.owned (kept : Kept s) (here : look Object.keeps s.objects i = some h) :
    Open s.log h ∧ .gives h ∉ s.log ∧ ∀ j, look Object.keeps s.objects j = some h → j = i := by
  obtain ⟨object, at_i, owns⟩ := owns_of_keeps here
  have balance := kept.balanced (.handle h)
  have once := kept.acquired_once (.handle h)
  have designated : Resource.handle h ∈ (account s).designated :=
    List.mem_filterMap.mpr ⟨object, List.mem_of_getElem? at_i, owns⟩
  have held := List.count_pos_iff.mpr designated
  have unreleased : ∀ c ∈ s.log, c.releases ≠ some (.handle h) := by
    intro c member same
    have some' : 0 < (account s).released.count (.handle h) :=
      List.count_pos_iff.mpr (List.mem_filterMap.mpr ⟨c, member, same⟩)
    omega
  refine ⟨⟨kept.opened (List.mem_append_right _ designated), fun member => unreleased _ member rfl⟩,
    fun member => unreleased _ member rfl, fun j there => ?_⟩
  by_contra apart
  obtain ⟨object', at_j, owns'⟩ := owns_of_keeps there
  have two : 2 ≤ (account s).designated.count (.handle h) := Account.two_le_count at_j at_i owns' owns apart
  omega

theorem Kept.given (kept : Kept s) (given : .gives h ∈ s.log) : Open s.log h := by
  have balance := kept.balanced (.handle h)
  have once := kept.acquired_once (.handle h)
  have released : Resource.handle h ∈ (account s).released := List.mem_filterMap.mpr ⟨_, given, rfl⟩
  refine ⟨kept.opened (List.mem_append_left _ released), fun closed => ?_⟩
  obtain ⟨i, at_i⟩ := List.mem_iff_getElem?.mp given
  obtain ⟨j, at_j⟩ := List.mem_iff_getElem?.mp closed
  have apart : i ≠ j := by
    rintro rfl
    cases at_i.symm.trans at_j
  have two : 2 ≤ (account s).released.count (.handle h) := Account.two_le_count at_i at_j rfl rfl apart
  omega

theorem Kept.stands (kept : Kept s) (stands : Stands s.objects s.log i h) : Open s.log h := by
  rcases stands with ⟨j, _, here⟩ | given
  · exact (kept.owned here).1
  · exact kept.given given

/-! ### One step -/

theorem Stands.mono {log' : List Call} {i' : Nat} (stands : Stands objects log i h)
    (kept : ∀ j < i, look Object.keeps objects j = some h → look Object.keeps objects' j = some h)
    (given : .gives h ∈ log → .gives h ∈ log')
    (later : i ≤ i') : Stands objects' log' i' h := by
  rcases stands with ⟨j, lt, here⟩ | gives
  · exact .inl ⟨j, by omega, kept j lt here⟩
  · exact .inr (given gives)

theorem gives_append (silent : .gives h ∉ calls) : .gives h ∈ log ++ calls ↔ .gives h ∈ log := by
  rw [List.mem_append]
  exact or_iff_left silent

theorem undoing_silent : Call.gives h ∉ undoing k this r := by
  unfold undoing
  simp

theorem nested_guards (nested : Nested objects log) (keeps : look Object.keeps objects' = look Object.keeps objects)
    (needs : ∀ i h, look Object.needs objects' i = some h →
      look Object.needs objects i = some h ∨ Stands objects log i h)
    (given : ∀ h, .gives h ∈ log → .gives h ∈ log ++ calls) : Nested objects' (log ++ calls) := by
  intro i h needed
  rcases needs i h needed with before | stands
  · exact (nested i h before).mono (fun j _ here => keeps ▸ here) (given h) le_rfl
  · exact stands.mono (fun j _ here => keeps ▸ here) (given h) le_rfl

theorem nested_acquires {src : Object} {devh claim : Nat} {interfaceNum : Int} (nested : Nested objects log)
    (source : objects[i]? = some src) (held : src.devh = some devh) (calls : List Call) :
    Nested (objects ++ [.guard k wrapped ⟨some devh, interfaceNum, claim⟩]) (log ++ calls) := by
  have inside := (List.getElem?_eq_some_iff.mp source).1
  have kept : ∀ {h j l}, l < j → j ≤ objects.length → look Object.keeps objects l = some h →
      look Object.keeps (objects ++ [.guard k wrapped ⟨some devh, interfaceNum, claim⟩]) l = some h := by
    intro h j l lt bound here
    rw [look_append, if_neg (by omega)]
    exact here
  intro j h needed
  rw [look_append] at needed
  split at needed
  case isTrue last =>
    obtain rfl : devh = h := Option.some.inj needed
    subst last
    cases src with
    | handle mStorage =>
      obtain rfl : mStorage = some devh := held
      exact .inl ⟨i, inside, kept inside le_rfl (look_of source)⟩
    | guard k' _ this =>
      exact (nested i devh ((look_of source).trans held)).mono (fun l lt here => kept lt inside.le here)
        (List.mem_append_left _) inside.le
  case isFalse =>
    have inside := lt_of_look needed
    exact (nested j h needed).mono (fun l lt here => kept lt inside.le here) (List.mem_append_left _) le_rfl

/-- A handle that leaves its object is no longer there for the claims made through it. -/
theorem nested_leaving_iff {mStorage : Option Nat} (kept : Kept s) (nested : Nested s.objects s.log)
    (here : s.objects[i]? = some (.handle mStorage)) (needs : look Object.needs objects' = look Object.needs s.objects)
    (keeps : ∀ l < s.objects.length, look Object.keeps objects' l =
      if l = i then none else look Object.keeps s.objects l) (silent : ∀ h, .gives h ∉ calls) :
    Nested objects' (s.log ++ calls) ↔
      ∀ h, look Object.keeps s.objects i = some h → ∀ j, look Object.needs s.objects j ≠ some h := by
  constructor
  · intro after h held j needed
    obtain ⟨_, ungiven, only⟩ := kept.owned held
    rcases after j h (needs ▸ needed) with ⟨l, lt, below⟩ | gives
    · rw [keeps l (lt.trans (lt_of_look needed))] at below
      split at below
      case isTrue => cases below
      case isFalse elsewhere => exact elsewhere (only l below)
    · exact ungiven ((gives_append (silent h)).mp gives)
  · intro apart j h needed
    rw [needs] at needed
    refine (nested j h needed).mono (fun l lt below => ?_) (List.mem_append_left _) le_rfl
    have elsewhere : l ≠ i := by
      rintro rfl
      exact apart h below j needed
    rw [keeps l (lt.trans (lt_of_look needed)), if_neg elsewhere]
    exact below

theorem nested_assignHandle_iff {a b : Nat} {this other : Option Nat} (kept : Kept s)
    (nested : Nested s.objects s.log) (target : s.objects[a]? = some (.handle this))
    (source : s.objects[b]? = some (.handle other)) (apart : a ≠ b) (silent : ∀ h, .gives h ∉ calls) :
    Nested ((s.objects.set a (.handle other)).set b (.handle none)) (s.log ++ calls) ↔
      (∀ h, look Object.keeps s.objects a = some h → ∀ j, look Object.needs s.objects j ≠ some h) ∧
      (∀ h, look Object.keeps s.objects b = some h → ∀ j, look Object.needs s.objects j = some h → a < j) := by
  have inside_a := (List.getElem?_eq_some_iff.mp target).1
  have inside_b := (List.getElem?_eq_some_iff.mp source).1
  have source' : (s.objects.set a (.handle other))[b]? = some (.handle other) :=
    (List.getElem?_set_ne apart).trans source
  have needs : look Object.needs ((s.objects.set a (.handle other)).set b (.handle none)) =
      look Object.needs s.objects :=
    (look_set_same (.handle none) source' rfl).trans (look_set_same (.handle other) target rfl)
  have keeps : ∀ l, look Object.keeps ((s.objects.set a (.handle other)).set b (.handle none)) l =
      if l = b then none else if l = a then other else look Object.keeps s.objects l := by
    intro l
    rw [look_set (by simpa using inside_b), look_set inside_a]
    rfl
  have held_b : look Object.keeps s.objects b = other := look_of source
  constructor
  · intro after
    have below : ∀ h j, look Object.needs s.objects j = some h → .gives h ∉ s.log →
        (∃ l < j, l ≠ b ∧ l ≠ a ∧ look Object.keeps s.objects l = some h) ∨ a < j ∧ other = some h := by
      intro h j needed ungiven
      rcases after j h (needs ▸ needed) with ⟨l, lt, here⟩ | gives
      · rw [keeps] at here
        split at here
        case isTrue => cases here
        case isFalse not_b =>
          split at here
          case isTrue at_a => exact .inr ⟨at_a ▸ lt, here⟩
          case isFalse not_a => exact .inl ⟨l, lt, not_b, not_a, here⟩
      · exact absurd ((gives_append (silent h)).mp gives) ungiven
    constructor
    · intro h held j needed
      obtain ⟨_, ungiven, only⟩ := kept.owned held
      rcases below h j needed ungiven with ⟨l, _, _, not_a, here⟩ | ⟨_, taken⟩
      · exact not_a (only l here)
      · exact apart (only b (held_b.trans taken)).symm
    · intro h held j needed
      obtain ⟨_, ungiven, only⟩ := kept.owned held
      rcases below h j needed ungiven with ⟨l, _, not_b, _, here⟩ | ⟨lt, _⟩
      · exact absurd (only l here) not_b
      · exact lt
  · rintro ⟨free, above⟩ j h needed
    rw [needs] at needed
    rcases nested j h needed with ⟨l, lt, here⟩ | gives
    · by_cases at_b : l = b
      · subst at_b
        refine .inl ⟨a, above h here j needed, ?_⟩
        rw [keeps, if_neg apart, if_pos rfl, ← held_b]
        exact here
      · refine .inl ⟨l, lt, ?_⟩
        have not_a : l ≠ a := by
          rintro rfl
          exact free h here j needed
        rw [keeps, if_neg at_b, if_neg not_a]
        exact here
    · exact .inr (List.mem_append_left _ gives)

theorem closing_silent {mStorage : Option Nat} : Call.gives h ∉ mStorage.toList.map Call.close := by
  simp

/-- An emptied guard needs no handle. -/
theorem emptied_views (here : objects[i]? = some (.guard k wrapped this)) :
    look Object.keeps (objects.set i (.guard k wrapped (emptied this))) = look Object.keeps objects ∧
      ∀ j h, look Object.needs (objects.set i (.guard k wrapped (emptied this))) j = some h →
        look Object.needs objects j = some h := by
  refine ⟨look_set_same (.guard k wrapped (emptied this)) here rfl, fun j h needed => ?_⟩
  rw [look_set (List.getElem?_eq_some_iff.mp here).1] at needed
  split at needed
  case isTrue => cases needed
  case isFalse => exact needed

theorem nested_emptied (nested : Nested objects log) (here : objects[i]? = some (.guard k wrapped this))
    (calls : List Call) :
    Nested (objects.set i (.guard k wrapped (emptied this))) (log ++ calls) := by
  obtain ⟨keeps, needs⟩ := emptied_views here
  exact nested_guards nested keeps (fun j h needed => .inl (needs j h needed)) fun _ => List.mem_append_left _

theorem nested_moveGuard {wrapped' : Bool} (nested : Nested objects log)
    (here : objects[i]? = some (.guard k wrapped this)) (calls : List Call) :
    Nested (objects.set i (.guard k wrapped (emptied this)) ++ [.guard k wrapped' this]) (log ++ calls) := by
  obtain ⟨keeps, needs⟩ := emptied_views here
  have inside := (List.getElem?_eq_some_iff.mp here).1
  have below : ∀ {h l}, look Object.keeps objects l = some h →
      look Object.keeps (objects.set i (.guard k wrapped (emptied this)) ++ [.guard k wrapped' this]) l = some h := by
    intro h l kept
    rw [look_append, List.length_set, if_neg (lt_of_look kept).ne, keeps]
    exact kept
  intro j h needed
  rw [look_append, List.length_set] at needed
  split at needed
  case isTrue last =>
    have before : look Object.needs objects i = some h := (look_of here).trans needed
    exact (nested i h before).mono (fun l _ => below) (List.mem_append_left _) (last ▸ inside.le)
  case isFalse => exact (nested j h (needs j h needed)).mono (fun l _ => below) (List.mem_append_left _) le_rfl

theorem nested_assignGuard_iff {a b : Nat} {other : Guard} (nested : Nested objects log)
    (target : objects[a]? = some (.guard k at_a this)) (source : objects[b]? = some (.guard k at_b other))
    (apart : a ≠ b) (silent : ∀ h, .gives h ∉ calls) :
    Nested ((objects.set a (.guard k at_a other)).set b (.guard k at_b (emptied other))) (log ++ calls) ↔
      ∀ h, look Object.needs objects b = some h → Stands objects log a h := by
  have source' : (objects.set a (.guard k at_a other))[b]? = some (.guard k at_b other) :=
    (List.getElem?_set_ne apart).trans source
  have keeps : look Object.keeps ((objects.set a (.guard k at_a other)).set b (.guard k at_b (emptied other))) =
      look Object.keeps objects :=
    (look_set_same (.guard k at_b (emptied other)) source' rfl).trans (look_set_same (.guard k at_a other) target rfl)
  have needs : ∀ l, look Object.needs ((objects.set a (.guard k at_a other)).set b (.guard k at_b (emptied other))) l =
      if l = b then none else if l = a then other.mDevh else look Object.needs objects l := by
    intro l
    rw [look_set (List.getElem?_eq_some_iff.mp source').1, look_set (List.getElem?_eq_some_iff.mp target).1]
    rfl
  have held : look Object.needs objects b = other.mDevh := look_of source
  constructor
  · intro after h needed
    rcases after a h (by rw [needs, if_neg apart, if_pos rfl, ← held, needed]) with ⟨l, lt, here⟩ | gives
    · exact .inl ⟨l, lt, keeps ▸ here⟩
    · exact .inr ((gives_append (silent h)).mp gives)
  · intro stands
    refine nested_guards nested keeps (fun j h needed => ?_) fun _ => List.mem_append_left _
    rw [needs] at needed
    split at needed
    case isTrue => cases needed
    case isFalse =>
      split at needed
      case isTrue at_a => exact .inr (at_a ▸ stands h (held.trans needed))
      case isFalse => exact .inl needed

theorem nested_release {mStorage : Option Nat} (nested : Nested objects log)
    (here : objects[i]? = some (.handle mStorage)) :
    Nested (objects.set i (.handle none)) (log ++ mStorage.toList.map .gives) := by
  intro j h needed
  rw [look_set_same (.handle none) here rfl] at needed
  rcases nested j h needed with ⟨l, lt, kept⟩ | gives
  · by_cases out : l = i
    · subst out
      obtain rfl : mStorage = some h := (look_of here).symm.trans kept
      exact .inr (by simp)
    · refine .inl ⟨l, lt, ?_⟩
      rw [look_set (List.getElem?_eq_some_iff.mp here).1, if_neg out]
      exact kept
  · exact .inr (List.mem_append_left _ gives)

theorem keeps_guard (here : objects[i]? = some (.guard k wrapped this)) : look Object.keeps objects i = none :=
  look_of here

/-- An assignment between guards takes no handle away from a claim; it can only move the claim. -/
theorem keepsNesting_guards_iff {a b : Nat} {other : Guard} (target : objects[a]? = some (.guard k at_a this))
    (source : objects[b]? = some (.guard k at_b other)) (apart : a ≠ b) : KeepsNesting objects log (.moveAssign a b r) ↔
      ∀ h, look Object.needs objects b = some h → (r ≠ 0 ∧ this.mDevh ≠ none) ∨ Stands objects log a h := by
  have needs : look Object.needs objects a = this.mDevh := look_of target
  constructor
  · exact fun keeps h needed => needs ▸ (keeps apart).2.2 h needed
  · intro allowed _
    refine ⟨fun h kept => ?_, fun h kept => ?_, ?_⟩
    · cases (keeps_guard target).symm.trans kept
    · cases (keeps_guard source).symm.trans kept
    · rw [needs]
      exact allowed

/-- From nested objects an operation leads to nested ones exactly when it keeps the nesting. -/
theorem nested_effect_iff (kept : Kept s) (nested : Nested s.objects s.log)
    (effect : Effect s.objects s.log.length op done) :
    Nested done.objects (s.log ++ done.calls) ↔ KeepsNesting s.objects s.log op := by
  have same : ∀ {calls : List Call}, Nested s.objects (s.log ++ calls) :=
    nested_guards nested rfl (fun _ _ => .inl) fun _ => List.mem_append_left _
  cases effect with
  | opens =>
    refine iff_of_true (fun j h needed => ?_) trivial
    rw [look_append] at needed
    split at needed
    case isTrue => cases needed
    case isFalse =>
      refine (nested j h needed).mono (fun l lt here => ?_) (List.mem_append_left _) le_rfl
      rw [look_append, if_neg (lt_of_look here).ne]
      exact here
  | openFails | acquireFails => exact iff_of_true same trivial
  | acquires source held => exact iff_of_true (nested_acquires nested source held _) trivial
  | @moveHandle i wrapped mStorage here =>
    refine nested_leaving_iff kept nested here ?_ (fun l lt => ?_) (by simp)
    · funext l
      rw [look_append, look_set_same (.handle none) here rfl, List.length_set]
      split
      case isTrue last => rw [last, look, List.getElem?_eq_none le_rfl]; rfl
      case isFalse => rfl
    · rw [look_append, if_neg (by simpa using lt.ne), look_set (List.getElem?_eq_some_iff.mp here).1]
      rfl
  | @moveGuard i k here wrapped other source =>
    refine iff_of_true (nested_moveGuard nested source []) fun h kept => ?_
    cases (keeps_guard source).symm.trans kept
  | assignSelf => exact iff_of_true same fun apart => absurd rfl apart
  | @assignHandle a b r this other target source apart =>
    rw [nested_assignHandle_iff kept nested target source apart fun _ => closing_silent]
    constructor
    · rintro ⟨free, above⟩ _
      refine ⟨free, above, fun h needed => ?_⟩
      rw [look_of source] at needed
      cases needed
    · intro keeps
      exact ⟨(keeps apart).1, (keeps apart).2.1⟩
  | @assignGuard a b r k at_a at_b this other target source apart undone =>
    rw [nested_assignGuard_iff nested target source apart fun _ => undoing_silent,
      keepsNesting_guards_iff target source apart]
    exact forall₂_congr fun h _ => (or_iff_right fun throws => undone.elim throws.1 throws.2).symm
  | @assignThrows a b r k at_a at_b this other ec target source apart failed held =>
    exact iff_of_true (nested_emptied nested target _)
      ((keepsNesting_guards_iff target source apart).mpr fun _ _ => .inl ⟨failed, held⟩)
  | reset here =>
    refine nested_leaving_iff kept nested here (look_set_same (.handle none) here rfl) (fun l lt => ?_)
      fun _ => closing_silent
    rw [look_set (List.getElem?_eq_some_iff.mp here).1]
    rfl
  | release here => exact iff_of_true (nested_release nested here) trivial
  | giveUp here => exact iff_of_true (nested_emptied nested here _) trivial

end CoUsb.Scope

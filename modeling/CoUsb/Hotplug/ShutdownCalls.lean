import CoUsb.Hotplug.Waiting

/-!
# What `shutdown` resolves

The loop of `shutdown` posts every accept it passes, and nothing else drops an accept without
a post. What it misses it misses by returning before the loop, or by going on with iterators
of a list that has changed.
-/

namespace CoUsb.Hotplug

variable {s s' : State} {e : Event} {es : List Event} {a b : Nat} {acc : Accept}

theorem Accept.Change.posts_le {new : Accept} (change : acc.Change new) (sound : acc.Sound) :
    acc.posts ≤ new.posts := by
  cases change with
  | begin absent =>
    unfold Sound at sound
    rw [absent] at sound
    exact sound.2.2.1.trans_le (Nat.zero_le _)
  | cancel | receive | dismiss => exact Nat.le_succ _
  | _ => exact le_rfl

theorem Outcome.posts_le (h : Outcome s e s') (sound : Sound s) (b : Nat) :
    (s.accepts b).posts ≤ (s'.accepts b).posts :=
  (h.change sound b).posts_le (sound.accepts b)

/-! ### The loops -/

/-- What is known of `m_resumptions` at a place of the loop, as long as the iterators are valid. -/
def Shutdown.Sound (s : State) : Shutdown → Prop
  | .unlocked i res edits => edits ≤ s.edits ∧ (edits = s.edits →
      s.mResumptions[i]? = some res ∧ ∀ b ∈ s.mResumptions.take i, 0 < (s.accepts b).posts)
  | .posted i edits => edits ≤ s.edits ∧ (edits = s.edits →
      ∀ b ∈ s.mResumptions.take (i + 1), 0 < (s.accepts b).posts)
  | _ => True

/-- Every accept that was registered waits or was posted. -/
structure Resolved (s : State) : Prop where
  calls : ∀ c ∈ s.shutdowns, c.Sound s
  posted : ∀ a, (s.accepts a).registered = true → a ∉ s.mResumptions → 0 < (s.accepts a).posts

theorem Outcome.edits (h : Outcome s e s') :
    s'.edits = s.edits ∧ s'.mResumptions = s.mResumptions ∨ s'.edits = s.edits + 1 := by
  cases h with
  | stopWaiting | register | hand | clear => exact .inr rfl
  | aside _ aside => exact .inl ⟨aside.edits, aside.mResumptions⟩
  | _ => exact .inl ⟨rfl, rfl⟩

theorem Shutdown.Sound.step {c : Shutdown} (kept : c.Sound s) (sound : Hotplug.Sound s) (h : Outcome s e s') :
    c.Sound s' := by
  have posts := h.posts_le sound
  rcases h.edits with ⟨edits, same⟩ | edits
  · cases c with
    | unlocked i res n =>
      obtain ⟨le, valid⟩ := kept
      refine ⟨edits ▸ le, fun now => ?_⟩
      rw [same]
      obtain ⟨here, passed⟩ := valid (now.trans edits)
      exact ⟨here, fun b member => (passed b member).trans_le (posts b)⟩
    | posted i n =>
      obtain ⟨le, valid⟩ := kept
      refine ⟨edits ▸ le, fun now => ?_⟩
      rw [same]
      exact fun b member => (valid (now.trans edits) b member).trans_le (posts b)
    | _ => trivial
  · cases c with
    | unlocked i res n =>
      have le : n ≤ s.edits := kept.1
      exact ⟨by omega, fun now => by omega⟩
    | posted i n =>
      have le : n ≤ s.edits := kept.1
      exact ⟨by omega, fun now => by omega⟩
    | _ => trivial

theorem Stands.passed {k i : Nat} (stands : Stands s e k i) (resolved : Resolved s) :
    ∀ b ∈ s.mResumptions.take i, 0 < (s.accepts b).posts := by
  cases stands with
  | walk => simp
  | relock call =>
    have kept := resolved.calls _ (List.mem_of_getElem? call)
    exact kept.2 rfl

theorem calls_step (sound : Sound s) (resolved : Resolved s) (h : Outcome s e s') : ∀ c ∈ s'.shutdowns, c.Sound s' := by
  have old : ∀ c ∈ s.shutdowns, c.Sound s' := fun c member => (resolved.calls c member).step sound h
  have set : ∀ {k new}, new.Sound s' → ∀ c ∈ s.shutdowns.set k new, c.Sound s' := by
    intro k new here c member
    rcases List.mem_or_eq_of_mem_set member with before | rfl
    · exact old c before
    · exact here
  cases h with
  | shutdown =>
    intro c member
    rcases List.mem_append.mp member with before | new
    · exact old c before
    · rw [List.mem_singleton] at new
      split at new <;> subst new <;> trivial
  | deregister | clear => exact set trivial
  | visit stands here => exact set ⟨le_rfl, fun _ => ⟨here, stands.passed resolved⟩⟩
  | post call =>
    obtain ⟨le, valid⟩ := resolved.calls _ (List.mem_of_getElem? call)
    refine set ⟨le, fun now => ?_⟩
    obtain ⟨here, passed⟩ := valid now
    intro b member
    show 0 < ((s.onAccept _ _).accepts b).posts
    rw [State.onAccept_accepts]
    split
    case isTrue => exact Nat.succ_pos _
    case isFalse other =>
      have member : b ∈ s.mResumptions.take (_ + 1) := member
      rw [List.take_add_one, here, List.mem_append] at member
      rcases member with before | same
      · exact passed b before
      · exact absurd (List.mem_singleton.mp same) other
  | aside _ aside => exact aside.shutdowns ▸ old
  | _ => exact old

theorem Outcome.removed (h : Outcome s e s') (resolved : Resolved s) (waiting : a ∈ s.mResumptions)
    (removed : a ∉ s'.mResumptions) : 0 < (s'.accepts a).posts := by
  cases h with
  | @stopWaiting c =>
    have same : a = c := by
      by_contra other
      exact removed ((List.mem_erase_of_ne other).mpr waiting)
    subst same
    show 0 < ((s.onAccept a _).accepts a).posts
    rw [State.onAccept_same]
    exact Nat.succ_pos _
  | register => exact absurd (List.mem_append_left _ waiting) removed
  | @hand c _ rest first =>
    have same : a = c := by
      rw [first] at waiting
      exact (List.mem_cons.mp waiting).resolve_right removed
    subst same
    show 0 < ((s.onAccept a _).accepts a).posts
    rw [State.onAccept_same]
    exact Nat.succ_pos _
  | clear stands ended =>
    have whole := stands.passed resolved
    rw [List.take_of_length_le (List.getElem?_eq_none_iff.mp ended)] at whole
    exact whole a waiting
  | aside _ aside => exact absurd (aside.mResumptions ▸ waiting) removed
  | _ => exact absurd waiting removed

theorem resolved_step (sound : Sound s) (resolved : Resolved s) (h : Outcome s e s') : Resolved s' := by
  refine ⟨calls_step sound resolved h, fun a now absent => ?_⟩
  by_cases before : (s.accepts a).registered = true
  · by_cases waiting : a ∈ s.mResumptions
    · exact h.removed resolved waiting absent
    · exact (resolved.posted a before waiting).trans_le (h.posts_le sound a)
  · exact absurd ((h.registers now).resolve_left before).1 absent

theorem resolved_initial : Resolved {} := ⟨by simp, by simp⟩

theorem resolved_run (h : machine.run {} es = some s) : Resolved s := by
  refine (Machine.run_invariant (I := fun s => Sound s ∧ Resolved s) ?_ ⟨sound_initial, resolved_initial⟩ h).2
  rintro s e s' ⟨sound, resolved⟩ step
  have outcome := (step_outcome step).1
  exact ⟨sound_step sound outcome, resolved_step sound resolved outcome⟩

/-! ### The calls that return -/

/-- A call of `shutdown` finds a handle or nobody to post, its loop goes on in the list it has read, and nobody who
has finished is posted. -/
def Resolving (s : State) : Event → Prop
  | .shutdown => s.mHandle ≠ 0 ∨ ∀ a ∈ s.mResumptions, 0 < (s.accepts a).posts
  | .relock k => ∀ i edits, s.shutdowns[k]? = some (.posted i edits) → edits = s.edits
  | .arrived desc => ¬ Dangles s (.arrived desc)
  | .post k => ¬ Dangles s (.post k)
  | _ => True

instance (s : State) : ∀ e, Decidable (Resolving s e)
  | .shutdown => inferInstanceAs (Decidable (_ ∨ _))
  | .relock k =>
    match call : s.shutdowns[k]? with
    | some (.posted _ edits) => decidable_of_iff (edits = s.edits) (by simp [Resolving, call])
    | none | some (.exchanged _) | some .deregistered | some (.unlocked _ _ _) | some .returned =>
      isTrue (by simp [Resolving, call])
  | .arrived desc => inferInstanceAs (Decidable (¬ Dangles s (.arrived desc)))
  | .post k => inferInstanceAs (Decidable (¬ Dangles s (.post k)))
  | .accept _ | .requestStop _ | .stopFn _ | .awaitReady _ | .stopTest _ | .awaitSuspend _ | .awaitResume _ | .finish _
  | .left _ | .bindEc _ | .bind _ | .listen _ | .close | .deregister _ | .walk _ => isTrue trivial

/-- The step `e` to `s'` ends a call of `shutdown`. -/
def Returns (s s' : State) : Prop := s.shutdowns.count .returned < s'.shutdowns.count .returned

/-- No accept was dropped without a post, and a call that returns leaves none to post. -/
structure AllResolved (s s' : State) : Prop where
  defined : s'.undefined = false
  dropped : ∀ a, (s'.accepts a).registered = true → a ∉ s'.mResumptions → 0 < (s'.accepts a).posts
  returns : Returns s s' → ∀ a, (s'.accepts a).registered = true → 0 < (s'.accepts a).posts

theorem count_set_le {calls : List Shutdown} {k : Nat} {c : Shutdown} (running : c ≠ .returned) :
    (calls.set k c).count .returned ≤ calls.count .returned := by
  by_cases bound : k < calls.length
  · have other : (c == Shutdown.returned) = false := by simpa using running
    rw [List.count_set bound, other]
    exact Nat.sub_le _ _
  · rw [List.set_eq_of_length_le (Nat.not_lt.mp bound)]

theorem Outcome.returns (h : Outcome s e s') (returns : Returns s s') :
    e = .shutdown ∧ s.mHandle = 0 ∧ s' = Hotplug.shutdown s ∨ s'.mResumptions = [] := by
  unfold Returns at returns
  have same : ∀ {calls : List Shutdown}, calls = s.shutdowns →
      ¬ s.shutdowns.count .returned < calls.count .returned := by
    rintro _ rfl
    exact lt_irrefl _
  have set : ∀ {k c}, c ≠ .returned → ¬ s.shutdowns.count .returned < (s.shutdowns.set k c).count .returned :=
    fun running => (count_set_le running).not_gt
  cases h with
  | clear => exact .inr rfl
  | shutdown =>
    by_cases handle : s.mHandle = 0
    · exact .inl ⟨rfl, handle, rfl⟩
    · apply absurd returns
      unfold Hotplug.shutdown
      rw [if_neg handle]
      simp
  | deregister | visit | post => exact absurd returns (set (by simp))
  | aside _ aside => exact absurd returns (same aside.shutdowns)
  | _ => exact absurd returns (same rfl)

theorem allResolved_step (sound : Sound s) (resolved : Resolved s) (resolving : Resolving s e)
    (h : machine.step s e = some s') : AllResolved s s' := by
  obtain ⟨outcome, defined⟩ := step_outcome h
  have after := resolved_step sound resolved outcome
  refine ⟨?_, after.posted, fun returns a registered => ?_⟩
  · cases outcome with
    | invalid call changed => exact absurd (resolving _ _ call) changed
    | hand first =>
      have there : (s.accepts _).phase ≠ .finished := fun finished => resolving ⟨_, _, first, finished⟩
      simp [defined, there]
    | post call =>
      have there : (s.accepts _).phase ≠ .finished := fun finished => resolving ⟨_, _, _, call, finished⟩
      simp [defined, there]
    | aside _ aside => exact aside.undefined.trans defined
    | _ => exact defined
  · rcases outcome.returns returns with ⟨rfl, handle, rfl⟩ | none
    · by_cases waiting : a ∈ s.mResumptions
      · exact resolving.resolve_left (absurd handle) a waiting
      · exact resolved.posted a registered waiting
    · exact after.posted a registered (by simp [none])

/-- A step that does not meet it is undefined, or returns with an accept that waits. -/
theorem not_allResolved (sound : Sound s) (stuck : ¬ Resolving s e) (h : machine.step s e = some s') :
    ¬ AllResolved s s' := by
  intro all
  replace h := (step_next h).1
  unfold Resolving at stuck
  split at stuck
  · simp only [not_or, not_not, not_forall] at stuck
    obtain ⟨handle, a, waiting, unposted⟩ := stuck
    obtain rfl := Option.some.inj h
    refine unposted (all.returns ?_ a (sound.waiting a waiting))
    unfold Returns shutdown
    rw [if_pos handle]
    simp
  · rename_i k
    simp only [not_forall] at stuck
    obtain ⟨i, edits, call, changed⟩ := stuck
    simp only [next, call] at h
    obtain rfl := Option.some.inj h
    have defined := all.defined
    unfold relock at defined
    rw [if_neg changed] at defined
    cases defined
  · obtain ⟨a, rest, first, finished⟩ := not_not.mp stuck
    obtain rfl := Option.some.inj h
    have defined := all.defined
    simp [arrived, first, finished] at defined
  · obtain ⟨i, res, edits, call, finished⟩ := not_not.mp stuck
    simp only [next, call] at h
    obtain rfl := Option.some.inj h
    have defined := all.defined
    simp [postCanceled, finished] at defined
  · exact stuck trivial

/-- In a run every accept is posted before it is dropped and before a `shutdown` returns, exactly when every
`shutdown` finds a handle or nobody to post and goes on only in a list that has not changed. -/
theorem shutdown_resolves_iff (h : machine.run {} es = some s) :
    (∀ fs e u v, fs ++ [e] <+: es → machine.run {} fs = some u → machine.step u e = some v → AllResolved u v) ↔
    machine.Meets Resolving {} es := by
  constructor
  · intro all
    by_contra fails
    obtain ⟨fs, e, rest, u, v, rfl, reached, stuck, step, _⟩ := Machine.exists_of_not_meets h fails
    exact not_allResolved (sound_run reached) stuck step (all fs e u v (by simp) reached step)
  · intro meets fs e u v initial reached step
    exact allResolved_step (sound_run reached) (resolved_run reached) (meets fs e u initial reached) step

/-- A `shutdown` after `listen` that posts the accept it finds waiting. -/
def shutsDown : List Event := waits 0 ++ [.listen 0, .shutdown, .deregister 0, .walk 0, .post 0, .relock 0]

theorem shutdown_resolves_iff_one : ∃ s, machine.run {} shutsDown = some s ∧ s.shutdowns = [.returned] ∧
    ∀ fs e u v, fs ++ [e] <+: shutsDown → machine.run {} fs = some u → machine.step u e = some v → AllResolved u v :=
  ⟨_, rfl, rfl, (shutdown_resolves_iff rfl).mpr (by decide)⟩

/-- Without `listen` a call of `shutdown` returns at once and leaves the accept waiting. -/
theorem shutdown_unlistened : ∃ u v, machine.run {} (waits 0) = some u ∧ machine.step u .shutdown = some v ∧
    Returns u v ∧ (v.accepts 0).registered = true ∧ (v.accepts 0).posts = 0 ∧ ¬ AllResolved u v := by
  have reached : ∃ u, machine.run {} (waits 0) = some u ∧ u.undefined = false ∧ u.mHandle = 0 ∧ u.shutdowns = [] ∧
      (u.accepts 0).registered = true ∧ (u.accepts 0).posts = 0 := ⟨_, rfl, rfl, rfl, rfl, rfl, rfl⟩
  obtain ⟨u, h, defined, handle, calls, registered, posts⟩ := reached
  have step : machine.step u .shutdown = some (shutdown u) := by
    show (if u.undefined then none else _) = _
    rw [defined]
    rfl
  have returns : Returns u (shutdown u) := by simp [Returns, shutdown, handle, calls]
  refine ⟨u, shutdown u, h, step, returns, registered, posts, fun all => ?_⟩
  have posted : 0 < (u.accepts 0).posts := all.returns returns 0 registered
  omega

end CoUsb.Hotplug

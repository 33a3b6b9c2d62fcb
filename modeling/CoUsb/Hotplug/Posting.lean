import CoUsb.Hotplug.ShutdownCalls

/-!
# How often an accept is posted

An accept is posted once by whoever takes it out of `m_resumptions`, and `shutdown` posts each
element its loop passes. The stop callback does not look whether the accept still waits.
-/

namespace CoUsb.Hotplug

variable {s s' : State} {e : Event} {es : List Event} {a b k : Nat} {acc : Accept}

/-- How many elements the loop has passed, and which contents its iterators belong to. -/
def Shutdown.walk : Shutdown → Option (Nat × Nat)
  | .unlocked i _ edits => some (i, edits)
  | .posted i edits => some (i + 1, edits)
  | _ => none

def walkAt (s : State) (k : Nat) : Option (Nat × Nat) := s.shutdowns[k]?.bind Shutdown.walk

/-- Some call of `shutdown` stands in its loop. -/
def walking (s : State) : Bool := s.shutdowns.any fun c => c.walk.isSome

theorem not_walking (idle : walking s = false) (k : Nat) : walkAt s k = none := by
  unfold walkAt
  cases call : s.shutdowns[k]? with
  | none => rfl
  | some c =>
    have outside := List.any_eq_false.mp idle c (List.mem_of_getElem? call)
    show c.walk = none
    simpa using outside

theorem walkAt_of {c : Shutdown} (call : s.shutdowns[k]? = some c) : walkAt s k = c.walk := by
  unfold walkAt
  rw [call]
  rfl

theorem walkAt_set {c : Shutdown} {j : Nat} (other : j ≠ k) : walkAt (s.onShutdown k c) j = walkAt s j := by
  unfold walkAt
  show ((s.shutdowns.set k c)[j]?).bind _ = _
  rw [List.getElem?_set_ne other.symm]

theorem walkAt_set_self {c old : Shutdown} (call : s.shutdowns[k]? = some old) :
    walkAt (s.onShutdown k c) k = c.walk := by
  apply walkAt_of
  show (s.shutdowns.set k c)[k]? = some c
  obtain ⟨bound, _⟩ := List.getElem?_eq_some_iff.mp call
  rw [List.getElem?_set_self bound]

theorem walkAt_congr (calls : s'.shutdowns = s.shutdowns) (k : Nat) : walkAt s' k = walkAt s k := by
  unfold walkAt
  rw [calls]

theorem walkAt_shutdown (s : State) (k : Nat) : walkAt (shutdown s) k = walkAt s k := by
  unfold walkAt shutdown
  dsimp only
  rcases lt_trichotomy k s.shutdowns.length with before | here | after
  · rw [List.getElem?_append_left before]
  · subst here
    rw [List.getElem?_concat_length, List.getElem?_eq_none le_rfl]
    split <;> rfl
  · rw [List.getElem?_eq_none (by simp; omega), List.getElem?_eq_none after.le]

/-- The stop callback finds its accept waiting, and nothing works on `m_resumptions` while a call of `shutdown`
stands in its loop. -/
def Undisturbed (s : State) : Event → Prop
  | .stopFn a => (s.accepts a).registered = true → a ∈ s.mResumptions ∧ walking s = false
  | .awaitSuspend a => (s.accepts a).phase = .tested false → s.mArrivedDevices = [] → walking s = false
  | .arrived _ => s.mResumptions ≠ [] → walking s = false
  | .walk _ => walking s = false
  | _ => True

instance decidableUndisturbed (s : State) : ∀ e, Decidable (Undisturbed s e)
  | .stopFn a => inferInstanceAs (Decidable ((s.accepts a).registered = true → a ∈ s.mResumptions ∧ walking s = false))
  | .awaitSuspend a =>
    inferInstanceAs (Decidable ((s.accepts a).phase = .tested false → s.mArrivedDevices = [] → walking s = false))
  | .arrived _ => inferInstanceAs (Decidable (s.mResumptions ≠ [] → walking s = false))
  | .walk _ => inferInstanceAs (Decidable (walking s = false))
  | .accept _ | .requestStop _ | .awaitReady _ | .stopTest _ | .awaitResume _ | .finish _ | .left _ | .bindEc _
  | .bind _ | .listen _ | .close | .shutdown | .deregister _ | .post _ | .relock _ => isTrue trivial

/-- No accept was posted twice, and those the loop has still to pass were not posted. -/
structure Once (s : State) : Prop where
  posts : ∀ a, (s.accepts a).posts ≤ 1
  idle : (∀ k, walkAt s k = none) → ∀ a ∈ s.mResumptions, (s.accepts a).posts = 0
  ahead : ∀ k n edits, walkAt s k = some (n, edits) →
    edits = s.edits ∧ ∀ a ∈ s.mResumptions.drop n, (s.accepts a).posts = 0
  one : ∀ j k, (walkAt s j).isSome = true → (walkAt s k).isSome = true → j = k

theorem Once.frame (once : Once s) (posts : ∀ b, (s'.accepts b).posts = (s.accepts b).posts)
    (waiting : s'.mResumptions = s.mResumptions) (edits : s'.edits = s.edits) (calls : ∀ k, walkAt s' k = walkAt s k) :
    Once s' := by
  refine ⟨fun a => (posts a).trans_le (once.posts a), fun now a member => ?_, fun k n m walk => ?_,
    fun j k first second => ?_⟩
  · rw [posts]
    exact once.idle (fun k => (calls k).symm.trans (now k)) a (waiting ▸ member)
  · rw [edits, waiting]
    obtain ⟨valid, unposted⟩ := once.ahead k n m ((calls k).symm.trans walk)
    exact ⟨valid, fun a member => (posts a).trans (unposted a member)⟩
  · rw [calls] at first second
    exact once.one j k first second

theorem once_only (k : Nat) (others : ∀ j, j ≠ k → walkAt s j = none) (posts : ∀ b, (s.accepts b).posts ≤ 1)
    (idle : walkAt s k = none → ∀ a ∈ s.mResumptions, (s.accepts a).posts = 0)
    (ahead : ∀ n edits, walkAt s k = some (n, edits) →
      edits = s.edits ∧ ∀ a ∈ s.mResumptions.drop n, (s.accepts a).posts = 0) : Once s := by
  have only : ∀ j, (walkAt s j).isSome = true → j = k := by
    intro j walk
    by_contra other
    rw [others j other] at walk
    cases walk
  refine ⟨posts, fun none => idle (none k), fun j n m walk => ?_,
    fun i j first second => (only i first).trans (only j second).symm⟩
  obtain rfl := only j (by rw [walk]; rfl)
  exact ahead n m walk

/-- Where the loop of `k` comes to an element, no other call is in its loop and nobody is posted from there on. -/
theorem Stands.alone {i : Nat} (stands : Stands s e k i) (once : Once s) (undisturbed : Undisturbed s e) :
    (∀ j, j ≠ k → walkAt s j = none) ∧ ∀ a ∈ s.mResumptions.drop i, (s.accepts a).posts = 0 := by
  cases stands with
  | walk call =>
    have idle := not_walking undisturbed
    exact ⟨fun j _ => idle j, once.idle idle⟩
  | relock call =>
    have walk := walkAt_of call
    refine ⟨fun j other => ?_, (once.ahead _ _ _ walk).2⟩
    by_contra some'
    exact other (once.one _ _ (Option.isSome_iff_ne_none.mpr some') (by rw [walk]; rfl))

theorem Stands.call {i : Nat} (stands : Stands s e k i) : ∃ c, s.shutdowns[k]? = some c := by
  cases stands with
  | walk call | relock call => exact ⟨_, call⟩

theorem Once.resolve (once : Once s) (idle : walking s = false) (distinct : s.mResumptions.Nodup)
    (waiting : a ∈ s.mResumptions) (posts : (s'.accepts a).posts = (s.accepts a).posts + 1)
    (others : ∀ b, b ≠ a → (s'.accepts b).posts = (s.accepts b).posts)
    (left : s'.mResumptions = s.mResumptions.erase a) (calls : s'.shutdowns = s.shutdowns) : Once s' := by
  have none : ∀ j, walkAt s' j = none := fun j => (walkAt_congr calls j).trans (not_walking idle j)
  have unposted := once.idle (not_walking idle)
  refine once_only 0 (fun j _ => none j) (fun b => ?_) (fun _ b member => ?_) fun n m walk => ?_
  · by_cases same : b = a
    · rw [same, posts, unposted a waiting]
    · rw [others b same]
      exact once.posts b
  · rw [left, distinct.mem_erase_iff] at member
    rw [others b member.1]
    exact unposted b member.2
  · rw [none] at walk
    cases walk

theorem Once.visit {i res : Nat} (once : Once s) (stands : Stands s e k i) (undisturbed : Undisturbed s e) :
    Once (s.onShutdown k (.unlocked i res s.edits)) := by
  obtain ⟨others, unposted⟩ := stands.alone once undisturbed
  obtain ⟨_, call⟩ := stands.call
  have walk : walkAt (s.onShutdown k (.unlocked i res s.edits)) k = some (i, s.edits) := walkAt_set_self call
  refine once_only k (fun j other => (walkAt_set other).trans (others j other)) once.posts ?_ fun n m now => ?_
  · intro none
    exact absurd (none.symm.trans walk) (by simp)
  · obtain ⟨rfl, rfl⟩ := Prod.mk.inj (Option.some.inj (walk.symm.trans now))
    exact ⟨rfl, unposted⟩

theorem Once.clear {i : Nat} (once : Once s) (stands : Stands s e k i) (undisturbed : Undisturbed s e) :
    Once { (s.edit []).onShutdown k .returned with mArrivedDevices := [] } := by
  obtain ⟨others, _⟩ := stands.alone once undisturbed
  obtain ⟨_, call⟩ := stands.call
  have walk : walkAt ((s.edit []).onShutdown k .returned) k = none := walkAt_set_self (s := s.edit []) call
  refine once_only k (fun j other => ?_) once.posts (fun _ b member => ?_) fun n m now => ?_
  · exact (walkAt_set (s := s.edit []) other).trans (others j other)
  · cases member
  · exact absurd (now.symm.trans walk) (by simp)

theorem Once.post {i res edits : Nat} (once : Once s) (distinct : s.mResumptions.Nodup) (resolved : Resolved s)
    (call : s.shutdowns[k]? = some (.unlocked i res edits)) :
    Once ((s.onFrame res .dismiss).onShutdown k (.posted i edits)) := by
  have walk := walkAt_of call
  obtain ⟨valid, unposted⟩ := once.ahead k i edits walk
  obtain ⟨here, _⟩ := (resolved.calls _ (List.mem_of_getElem? call)).2 valid
  obtain ⟨bound, here⟩ := List.getElem?_eq_some_iff.mp here
  have drop : s.mResumptions.drop i = res :: s.mResumptions.drop (i + 1) := by
    rw [List.drop_eq_getElem_cons bound, here]
  have fresh : res ∉ s.mResumptions.drop (i + 1) := by
    have apart := distinct.sublist (List.drop_sublist i s.mResumptions)
    rw [drop] at apart
    exact (List.nodup_cons.mp apart).1
  have after : walkAt ((s.onFrame res .dismiss).onShutdown k (.posted i edits)) k = some (i + 1, edits) :=
    walkAt_set_self call
  refine once_only k (fun j other => ?_) (fun b => ?_) (fun none => ?_) fun n m now => ?_
  · rw [walkAt_set other]
    by_contra some'
    exact other (once.one j k (Option.isSome_iff_ne_none.mpr some') (by rw [walk]; rfl))
  · show ((s.onAccept res .dismiss).accepts b).posts ≤ 1
    rw [State.onAccept_accepts]
    split
    · show (s.accepts res).posts + 1 ≤ 1
      rw [unposted res (by simp [drop])]
    · exact once.posts b
  · exact absurd (none.symm.trans after) (by simp)
  · obtain ⟨rfl, rfl⟩ := Prod.mk.inj (Option.some.inj (after.symm.trans now))
    refine ⟨valid, fun b member => ?_⟩
    show ((s.onAccept res .dismiss).accepts b).posts = 0
    have other : b ≠ res := fun same => fresh (same ▸ member)
    rw [State.onAccept_other other]
    exact unposted b (by rw [drop]; exact List.mem_cons_of_mem _ member)

theorem once_step (sound : Sound s) (ordered : Ordered s) (resolved : Resolved s) (once : Once s)
    (undisturbed : Undisturbed s e) (h : Outcome s e s') : Once s' := by
  have distinct := ordered.order.nodup ordered.distinct
  have quiet : ∀ {a f}, ((f (s.accepts a)).posts = (s.accepts a).posts) → ∀ b,
      ((s.onAccept a f).accepts b).posts = (s.accepts b).posts := by
    intro a f same b
    rw [State.onAccept_accepts]
    split
    case isTrue here => exact here ▸ same
    case isFalse => rfl
  cases h with
  | @accept a absent =>
    refine once.frame (quiet ?_) rfl rfl fun _ => rfl
    have none := sound.accepts a
    unfold Accept.Sound at none
    rw [absent] at none
    exact none.2.2.1.symm
  | stopWaiting stoppable registered waiting =>
    refine once.resolve (undisturbed registered).2 distinct waiting ?_ (fun b other => ?_) rfl rfl
    · show ((s.onAccept _ _).accepts _).posts = _
      rw [State.onAccept_same]
      rfl
    · show ((s.onAccept _ _).accepts _).posts = _
      rw [State.onAccept_other other]
  | stopLate stoppable registered gone => exact absurd (undisturbed registered).1 gone
  | @register a tested none =>
    have idle := not_walking (undisturbed tested none)
    have unposted := ((sound.accepts a).early (.inr (.inr ⟨_, tested⟩))).2.2.1
    have posts : ∀ b, ((s.onAccept a .register).accepts b).posts = (s.accepts b).posts := quiet rfl
    refine once_only 0 (fun j _ => idle j) (fun b => (posts b).trans_le (once.posts b)) (fun _ b member => ?_)
      fun n m walk => ?_
    · show ((s.onAccept a .register).accepts b).posts = 0
      rw [posts]
      rcases List.mem_append.mp member with old | new
      · exact once.idle idle b old
      · rwa [List.mem_singleton.mp new]
    · exact absurd (walk.symm.trans (idle 0)) (by simp)
  | @hand a desc rest first =>
    have waiting : a ∈ s.mResumptions := by simp [first]
    refine once.resolve (undisturbed (by simp [first])) distinct waiting ?_ (fun b other => ?_) ?_ rfl
    · show ((s.onAccept a _).accepts a).posts = _
      rw [State.onAccept_same]
      rfl
    · show ((s.onAccept a _).accepts b).posts = _
      rw [State.onAccept_other other]
    · show rest = s.mResumptions.erase a
      rw [first, List.erase_cons_head]
  | shutdown => exact once.frame (fun _ => rfl) rfl rfl (walkAt_shutdown s)
  | @deregister k handle call =>
    refine once.frame (fun _ => rfl) rfl rfl fun j => ?_
    by_cases same : j = k
    · subst same
      exact (walkAt_set_self call).trans (walkAt_of call).symm
    · exact walkAt_set same
  | visit stands => exact once.visit stands undisturbed
  | clear stands => exact once.clear stands undisturbed
  | post call => exact once.post distinct resolved call
  | aside _ aside =>
    exact once.frame (fun _ => by rw [aside.accepts]) aside.mResumptions aside.edits (walkAt_congr aside.shutdowns)
  | store | left | invalid => exact once.frame (fun _ => rfl) rfl rfl fun _ => rfl
  | _ => exact once.frame (quiet rfl) rfl rfl fun _ => rfl

theorem Accept.Sound.direct_posts (sound : acc.Sound) (direct : acc.direct = true) : acc.posts = 0 := by
  unfold Sound at sound
  split at sound
  case h_6 => exact absurd (direct.symm.trans sound.2.1) (by simp)
  all_goals simp_all

/-- In a run whose sections are undisturbed every accept is posted at most once, and never when it went on
directly. -/
theorem posts_once (h : machine.run {} es = some s) (undisturbed : machine.Meets Undisturbed {} es) (a : Nat) :
    (s.accepts a).posts ≤ 1 ∧ ((s.accepts a).direct = true → (s.accepts a).posts = 0) := by
  have kept : Sound s ∧ Ordered s ∧ Resolved s ∧ Once s := by
    refine Machine.run_invariant_of_meets (I := fun s => Sound s ∧ Ordered s ∧ Resolved s ∧ Once s) ?_ ?_ h undisturbed
    · rintro s e s' ⟨sound, ordered, resolved, once⟩ undisturbed step
      have outcome := (step_outcome step).1
      exact ⟨sound_step sound outcome, ordered_step sound ordered outcome, resolved_step sound resolved outcome,
        once_step sound ordered resolved once undisturbed outcome⟩
    · exact ⟨sound_initial, ordered_initial, resolved_initial, fun _ => Nat.zero_le _, by simp, by simp [walkAt],
        by simp [walkAt]⟩
  exact ⟨kept.2.2.2.posts a, (kept.1.accepts a).direct_posts⟩

theorem posts_once_shutdown : ∃ s, machine.run {} shutsDown = some s ∧ (s.accepts 0).posts = 1 ∧
    ((s.accepts 0).posts ≤ 1 ∧ ((s.accepts 0).direct = true → (s.accepts 0).posts = 0)) := by
  have reached : ∃ s, machine.run {} shutsDown = some s ∧ (s.accepts 0).posts = 1 := ⟨_, rfl, rfl⟩
  obtain ⟨s, h, posted⟩ := reached
  exact ⟨s, h, posted, posts_once h (by decide) 0⟩

/-- A device is handed to the waiting accept, and its stop callback runs before the coroutine does. -/
theorem posts_twice : ∃ s,
    machine.run {} ([.listen 0] ++ waits 0 ++ [.arrived ⟨1, 2, 0⟩, .requestStop 0, .stopFn 0]) = some s ∧
    (s.accepts 0).posts = 2 := ⟨_, rfl, rfl⟩

end CoUsb.Hotplug

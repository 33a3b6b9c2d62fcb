import CoUsb.Hotplug.OneshotHotplug

/-!
# Who resolves a one-shot hotplug

The stop callback acts when it finds a handle. The handle is written after the callback was
registered and stays when the callback has run.
-/

namespace CoUsb.Hotplug.Oneshot

variable {s s' : State} {e : Event} {es : List Event}

/-! ### What a step can do -/

inductive Step (s : State) : Event → State → Prop where
  | begin (absent : s.life = .absent) : Step s .begin (begin s)
  | requestStop : Step s .requestStop { s with requested := true }
  | stopTest (life : s.life = .constructed) (before : s.suspend = .before) : Step s .stopTest (stopTest s)
  | register (r : Int) (tested : s.suspend = .tested) : Step s (.register r) (register s r)
  | registered (handle : Nat) (registering : s.suspend = .registering) (nonzero : handle ≠ 0) :
      Step s (.registered handle) (registered s handle)
  | callback (event : HotplugEvent) (dev : Nat) (active : s.active = true) :
      Step s (.callback event dev) (callback s event dev)
  | stopFn (life : s.life = .constructed) (idle : s.stop = .idle) : Step s .stopFn (stopFn s)
  | deregister (tested : s.stop = .tested) : Step s .deregister (deregister s)
  | stopPost (deregistered : s.stop = .deregistered) : Step s .stopPost (stopPost s)
  | awaitResume (ready : s.ready = true) : Step s .awaitResume (awaitResume s)
  | finish (life : s.life = .constructed) : Step s .finish { s with life := .destroyed }

theorem step_cases (h : machine.step s e = some s') : Step s e s' := by
  replace h : step s e = some s' := h
  cases e with
  | requestStop =>
    obtain rfl := Option.some.inj h
    exact .requestStop
  | begin | register r | callback event dev | deregister | stopPost =>
    simp only [step, Option.ite_none_right_eq_some, Option.some.injEq] at h
    obtain ⟨allowed, rfl⟩ := h
    constructor
    exact allowed
  | stopTest | registered handle =>
    simp only [step, Option.ite_none_right_eq_some, Option.some.injEq] at h
    obtain ⟨⟨first, second⟩, rfl⟩ := h
    constructor <;> assumption
  | stopFn =>
    simp only [step, Option.ite_none_right_eq_some, Option.some.injEq] at h
    obtain ⟨⟨life, _, idle⟩, rfl⟩ := h
    exact .stopFn life idle
  | awaitResume =>
    simp only [step, Option.ite_none_right_eq_some, Option.some.injEq] at h
    obtain ⟨⟨ready, _⟩, rfl⟩ := h
    exact .awaitResume ready
  | finish =>
    simp only [step, Option.ite_none_right_eq_some, Option.some.injEq] at h
    obtain ⟨⟨life, _⟩, rfl⟩ := h
    exact .finish life

/-! ### Who posts -/

/-- The stop callback has returned. -/
def State.stopFinished (s : State) : Bool := s.stop == .posted || s.stop == .ignored

/-- The continuation is posted at most once, not at all when `await_suspend` returned `h`, and a stop whose callback
has returned is not left unheard. -/
structure Resolved (s : State) : Prop where
  posts : s.posts ≤ 1
  direct : s.suspend = .direct → s.posts = 0
  stopped : s.stopFinished = true → s.suspend = .suspended → 0 < s.posts

/-- The stop callback posts before the hotplug callback runs, and has not returned when the registration ends, unless
the hotplug callback has run. -/
def Exclusive (s : State) : Event → Prop
  | .stopPost => s.called = false
  | .registered _ => s.stop = .ignored → s.called = true
  | _ => True

instance (s : State) : ∀ e, Decidable (Exclusive s e)
  | .stopPost => inferInstanceAs (Decidable (_ = _))
  | .registered _ => inferInstanceAs (Decidable (_ → _))
  | .begin | .requestStop | .stopTest | .register _ | .callback _ _ | .stopFn | .deregister | .awaitResume | .finish =>
    isTrue trivial

def StopCallback.posts : StopCallback → Nat
  | .posted => 1
  | .idle | .tested | .deregistered | .ignored => 0

theorem StopCallback.posts_eq_zero {stop : StopCallback} (unposted : stop ≠ .posted) : stop.posts = 0 := by
  cases stop <;> first | rfl | exact absurd rfl unposted

/-- What is posted and by whom. -/
structure Counted (s : State) : Prop where
  posts : s.posts = s.called.toNat + s.stop.posts
  early : s.suspend = .before ∨ s.suspend = .tested ∨ s.suspend = .direct → s.called = false ∧ s.active = false
  once : s.called = true → s.active = false
  handle : s.handle ≠ 0 ↔ s.suspend = .suspended
  stop : s.stop ≠ .idle → s.stop ≠ .ignored → s.handle ≠ 0
  deregistered : s.stop = .deregistered ∨ s.stop = .posted → s.active = false
  absent : s.life = .absent → s.suspend = .before ∧ s.stop = .idle

theorem counted_begin (counted : Counted s) (absent : s.life = .absent) : Counted (begin s) := by
  obtain ⟨posts, early, once, handle, stop, deregistered, life⟩ := counted
  obtain ⟨suspend, idle⟩ := life absent
  have none : s.handle = 0 := by simpa [suspend] using handle
  unfold begin stopFn
  dsimp only
  rw [if_pos none]
  split
  · exact ⟨by simpa [idle, StopCallback.posts] using posts, early, once, handle, by simp, by simp, by simp⟩
  · exact ⟨posts, early, once, handle, stop, deregistered, by simp⟩

theorem counted_register (counted : Counted s) (r : Int) (tested : s.suspend = .tested) : Counted (register s r) := by
  obtain ⟨posts, early, once, handle, stop, deregistered, absent⟩ := counted
  obtain ⟨uncalled, inactive⟩ := early (.inr (.inl tested))
  have none : s.handle = 0 := by simpa [tested] using handle
  have begun : s.life ≠ .absent := fun life => by simp [(absent life).1] at tested
  unfold register
  split
  · exact ⟨posts, fun _ => ⟨uncalled, inactive⟩, once, by simp [none], stop, deregistered, by simp [begun]⟩
  · refine ⟨posts, by simp, ?_, by simp [none], stop, fun late => ?_, by simp [begun]⟩
    · intro called
      cases uncalled.symm.trans called
    · have late : s.stop = .deregistered ∨ s.stop = .posted := late
      rcases late with now | now
      all_goals exact absurd none (stop (by simp [now]) (by simp [now]))

theorem counted_stopFn (counted : Counted s) (life : s.life = .constructed) (idle : s.stop = .idle) :
    Counted (stopFn s) := by
  obtain ⟨posts, early, once, handle, _, _, _⟩ := counted
  have posts : s.posts = s.called.toNat := by simpa [idle, StopCallback.posts] using posts
  unfold stopFn
  split
  case isTrue =>
    exact ⟨by simpa [StopCallback.posts] using posts, early, once, handle, by simp, by simp, by simp [life]⟩
  case isFalse nonzero =>
    exact ⟨by simpa [StopCallback.posts] using posts, early, once, handle, fun _ _ => nonzero, by simp, by simp [life]⟩

theorem counted_step (counted : Counted s) (step : Step s e s') : Counted s' := by
  obtain ⟨posts, early, once, handle, stop, deregistered, absent⟩ := id counted
  cases step with
  | begin absent => exact counted_begin counted absent
  | requestStop | awaitResume => exact ⟨posts, early, once, handle, stop, deregistered, absent⟩
  | stopTest life before =>
    have uncalled := early (.inl before)
    have none : s.handle = 0 := by simpa [before] using handle
    unfold stopTest
    split
    all_goals exact ⟨posts, fun _ => uncalled, once, by simp [none], stop, deregistered, by simp [life]⟩
  | register r tested => exact counted_register counted r tested
  | registered h registering nonzero =>
    have begun : s.life ≠ .absent := fun life => by simp [(absent life).1] at registering
    exact ⟨posts, by simp [registered], once, by simp [registered, nonzero], fun _ _ => nonzero, deregistered,
      by simp [registered, begun]⟩
  | callback event dev active =>
    have uncalled : s.called = false := Bool.eq_false_iff.mpr fun called => by cases active.symm.trans (once called)
    refine ⟨?_, ?_, fun _ => rfl, handle, stop, fun _ => rfl, absent⟩
    · show s.posts + 1 = _
      rw [posts, uncalled]
      exact Nat.add_right_comm 0 _ 1
    · intro now
      have inactive := (early now).2
      simp [active] at inactive
  | stopFn life idle => exact counted_stopFn counted life idle
  | deregister tested =>
    have nonzero := stop (by simp [tested]) (by simp [tested])
    have begun : s.life ≠ .absent := fun life => by simp [(absent life).2] at tested
    exact ⟨by simpa [deregister, tested, StopCallback.posts] using posts, fun now => ⟨(early now).1, rfl⟩, fun _ => rfl,
      handle, fun _ _ => nonzero, fun _ => rfl, by simp [deregister, begun]⟩
  | stopPost was =>
    have nonzero := stop (by simp [was]) (by simp [was])
    have begun : s.life ≠ .absent := fun life => by simp [(absent life).2] at was
    exact ⟨by simp [stopPost, posts, was, StopCallback.posts], early, once, handle, fun _ _ => nonzero,
      fun _ => deregistered (.inl was), by simp [stopPost, begun]⟩
  | finish => exact ⟨posts, early, once, handle, stop, deregistered, by simp⟩

theorem counted_run (h : machine.run {} es = some s) : Counted s :=
  Machine.run_invariant (fun counted step => counted_step counted (step_cases step))
    ⟨rfl, by simp, by simp, by simp, by simp, by simp, by simp⟩ h

/-- Only one of the two parties posts, and a stop that was ignored was preceded by the hotplug callback. -/
structure Alone (s : State) : Prop where
  posted : s.stop = .posted → s.called = false
  ignored : s.stop = .ignored → s.suspend = .suspended → s.called = true

theorem alone_step (counted : Counted s) (alone : Alone s) (exclusive : Exclusive s e) (step : Step s e s') :
    Alone s' := by
  obtain ⟨posted, ignored⟩ := alone
  cases step with
  | begin absent =>
    obtain ⟨before, idle⟩ := counted.absent absent
    unfold begin stopFn
    dsimp only
    split
    · exact ⟨(fun now => by split at now <;> cases now), by simp [before]⟩
    · exact ⟨posted, ignored⟩
  | requestStop | awaitResume | finish => exact ⟨posted, ignored⟩
  | stopTest =>
    unfold stopTest
    split <;> exact ⟨posted, by simp⟩
  | register =>
    unfold register
    split <;> exact ⟨posted, by simp⟩
  | registered => exact ⟨posted, fun now _ => exclusive now⟩
  | callback event dev active =>
    refine ⟨fun now => ?_, fun _ _ => rfl⟩
    have inactive := counted.deregistered (.inr now)
    cases active.symm.trans inactive
  | stopFn =>
    unfold stopFn
    split
    case isTrue none => exact ⟨by simp, fun _ now => absurd none (counted.handle.mpr now)⟩
    case isFalse => exact ⟨by simp, by simp⟩
  | deregister => exact ⟨by simp [deregister], by simp [deregister]⟩
  | stopPost => exact ⟨fun _ => exclusive, by simp [stopPost]⟩

theorem resolved_iff (counted : Counted s) : Resolved s ↔ Alone s := by
  obtain ⟨posts, early, _, handle, stop, _, _⟩ := counted
  constructor
  · rintro ⟨once, _, stopped⟩
    refine ⟨fun posted => ?_, fun ignored suspended => ?_⟩
    · cases called : s.called with
      | false => rfl
      | true => simp [posts, posted, called, StopCallback.posts] at once
    · have some' := stopped (by simp [State.stopFinished, ignored]) suspended
      cases called : s.called with
      | false => simp [posts, ignored, called, StopCallback.posts] at some'
      | true => rfl
  · rintro ⟨posted, ignored⟩
    refine ⟨?_, fun direct => ?_, fun finished suspended => ?_⟩
    · by_cases now : s.stop = .posted
      · simp [posts, now, posted now, StopCallback.posts]
      · rw [posts, StopCallback.posts_eq_zero now]
        exact Bool.toNat_le _
    · have unposted : s.stop ≠ .posted := by
        intro now
        have suspended := handle.mp (stop (by simp [now]) (by simp [now]))
        simp [direct] at suspended
      rw [posts, StopCallback.posts_eq_zero unposted, (early (.inr (.inr direct))).1]
      rfl
    · unfold State.stopFinished at finished
      rw [Bool.or_eq_true, beq_iff_eq, beq_iff_eq] at finished
      rcases finished with now | now
      · simp [posts, now, StopCallback.posts]
      · rw [posts, ignored now suspended]
        exact Nat.lt_of_lt_of_le Nat.one_pos (Nat.le_add_right 1 _)

/-- A step that does not meet the condition posts again, or suspends an operation whose stop is over. -/
theorem not_alone (missed : ¬ Exclusive s e) (step : Step s e s') : ¬ Alone s' := by
  intro alone
  cases step with
  | registered => exact missed fun ignored => alone.ignored ignored rfl
  | stopPost => exact missed (alone.posted rfl)
  | _ => exact missed trivial

/-- In a run a one-shot hotplug is resolved once, exactly when only one of its callbacks posts
and the stop callback does not miss the handle. -/
theorem resolved_run_iff (h : machine.run {} es = some s) :
    (∀ fs u, fs <+: es → machine.run {} fs = some u → Resolved u) ↔ machine.Meets Exclusive {} es := by
  refine Machine.forall_prefix_iff (I := fun s => Counted s ∧ Alone s)
    (fun kept => (resolved_iff kept.1).mpr kept.2) ?_ ⟨counted_run Machine.run_nil, by simp, by simp⟩ h
  rintro s e s' ⟨counted, alone⟩ step
  replace step := step_cases step
  have after := counted_step counted step
  constructor
  · intro resolved
    by_contra missed
    exact not_alone missed step ((resolved_iff after).mp resolved)
  · intro exclusive
    exact ⟨after, alone_step counted alone exclusive step⟩

/-- A device arrives and the operation ends. -/
def arrives : List Event :=
  [.begin, .stopTest, .register 0, .registered 1, .callback .arrived 7, .awaitResume, .finish]

theorem resolved_run_iff_arrives : ∃ s, machine.run {} arrives = some s ∧ s.result = some ({}, some .arrived, some 7) ∧
    ∀ fs u, fs <+: arrives → machine.run {} fs = some u → Resolved u :=
  ⟨_, rfl, rfl, (resolved_run_iff rfl).mpr (by decide)⟩

/-- A stop request after the hotplug callback and before the coroutine runs posts a second time. -/
theorem posted_twice : ∃ s, machine.run {} [.begin, .stopTest, .register 0, .registered 1, .callback .arrived 7,
    .requestStop, .stopFn, .deregister, .stopPost] = some s ∧ s.posts = 2 ∧ ¬ Resolved s :=
  ⟨_, rfl, rfl, fun resolved => absurd resolved.posts (by decide)⟩

end CoUsb.Hotplug.Oneshot

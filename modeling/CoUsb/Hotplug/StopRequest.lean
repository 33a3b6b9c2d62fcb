import CoUsb.Hotplug.ShutdownCalls

/-!
# Stop requests on an accept

The stop callback resolves an accept that is registered. One that runs between the stop test of
`await_suspend` and the registration finds nothing to do, and the accept then waits unheard.
-/

namespace CoUsb.Hotplug

variable {s s' : State} {e : Event} {es : List Event} {a b : Nat} {acc new : Accept}

/-- `await_suspend` has returned, or was not needed. -/
def Accept.past (acc : Accept) : Bool :=
  match acc.phase with
  | .absent | .started | .unready | .tested _ => false
  | .direct | .suspended | .resumed | .finished => true

/-- Whoever was stopped does not wait: it has a device, or was continued with `operation_canceled`. -/
def StopServed (s : State) : Prop :=
  ∀ a, (s.accepts a).stopped = true → (s.accepts a).past = true → a ∉ s.mResumptions ∧
    ((s.accepts a).dev.isSome = true ∨ (s.accepts a).ec = makeErrorCode .operationCanceled ∧
      ((s.accepts a).direct = true ∨ 0 < (s.accepts a).posts))

/-- No accept is registered whose stop callback has run. -/
def StopsInTime (s : State) : Event → Prop
  | .awaitSuspend a =>
    (s.accepts a).phase = .tested false → (s.accepts a).stopped = true → s.mArrivedDevices ≠ []
  | _ => True

instance (s : State) : ∀ e, Decidable (StopsInTime s e)
  | .awaitSuspend _ => inferInstanceAs (Decidable (_ → _ → _))
  | .accept _ | .requestStop _ | .stopFn _ | .awaitReady _ | .stopTest _ | .awaitResume _ | .finish _ | .arrived _
  | .left _ | .bindEc _ | .bind _ | .listen _ | .close | .shutdown | .deregister _ | .walk _ | .post _ | .relock _ =>
    isTrue trivial

/-- The accept was cancelled by its stop callback. -/
def Accept.Cancelled (acc : Accept) : Prop := acc.ec = makeErrorCode .operationCanceled ∧ 0 < acc.posts

theorem Accept.Change.cancelled (change : acc.Change new) (sound : acc.Sound) (cancelled : acc.Cancelled) :
    new.Cancelled := by
  cases change with
  | begin absent =>
    unfold Sound at sound
    rw [absent] at sound
    exact absurd sound.2.2.1 cancelled.2.ne'
  | refuse => exact ⟨rfl, cancelled.2⟩
  | receive => exact ⟨cancelled.1, Nat.succ_pos _⟩
  | cancel | dismiss => exact ⟨rfl, Nat.succ_pos _⟩
  | _ => exact cancelled

/-- Whoever was registered and stopped has been cancelled and does not wait. -/
def Stopped (s : State) : Prop :=
  ∀ a, (s.accepts a).stopped = true → (s.accepts a).registered = true → (s.accepts a).Cancelled ∧ a ∉ s.mResumptions

theorem Outcome.stops (h : Outcome s e s') (ordered : Ordered s) (before : (s.accepts b).stopped = false)
    (stopped : (s'.accepts b).stopped = true) (registered : (s'.accepts b).registered = true) :
    (s'.accepts b).Cancelled ∧ b ∉ s'.mResumptions := by
  have same : ∀ {a f}, ((f (s.accepts a)).stopped = true → (f (s.accepts a)).registered = true →
      (s.accepts a).stopped = true) → ((s.onAccept a f).accepts b).stopped = true →
      ((s.onAccept a f).accepts b).registered = true → (s.accepts b).stopped = true := by
    intro a f local' stopped registered
    rw [State.onAccept_accepts] at stopped registered
    split at stopped
    case isTrue here =>
      rw [if_pos here] at registered
      exact here ▸ local' stopped registered
    case isFalse => exact stopped
  have quiet : (s.accepts b).stopped = true → (s'.accepts b).Cancelled ∧ b ∉ s'.mResumptions :=
    fun stopped => absurd (before.symm.trans stopped) (by simp)
  have at' : ∀ {a}, ((s.onAccept a .cancel).accepts b).stopped = true →
      b = a ∧ ((s.onAccept a .cancel).accepts b).Cancelled := by
    intro a stopped
    by_cases here : b = a
    · subst here
      rw [State.onAccept_same]
      exact ⟨rfl, rfl, Nat.succ_pos _⟩
    · rw [State.onAccept_other here] at stopped
      exact absurd (before.symm.trans stopped) (by simp)
  cases h with
  | accept => exact quiet (same (fun _ registered => by cases registered) stopped registered)
  | stopEarly _ unregistered =>
    exact quiet (same (fun _ registered => absurd (unregistered.symm.trans registered) (by simp)) stopped registered)
  | stopWaiting _ _ waiting =>
    obtain ⟨rfl, cancelled⟩ := at' stopped
    exact ⟨cancelled, (ordered.order.nodup ordered.distinct).not_mem_erase⟩
  | stopLate _ _ gone =>
    obtain ⟨rfl, cancelled⟩ := at' stopped
    exact ⟨cancelled, gone⟩
  | aside _ aside => exact quiet (aside.accepts ▸ stopped)
  | store | left | shutdown | deregister | visit | clear | invalid => exact quiet stopped
  | _ => exact quiet (same (fun stopped _ => stopped) stopped registered)

theorem stopped_step (sound : Sound s) (ordered : Ordered s) (kept : Stopped s) (inTime : StopsInTime s e)
    (h : Outcome s e s') : Stopped s' := by
  intro b stopped registered
  cases before : (s.accepts b).stopped with
  | false => exact h.stops ordered before stopped registered
  | true =>
    rcases h.registers registered with already | ⟨_, rfl, tested, none⟩
    · obtain ⟨cancelled, gone⟩ := kept b before already
      refine ⟨(h.change sound b).cancelled (sound.accepts b) cancelled, fun member => ?_⟩
      rcases h.waiting with ⟨fewer, _⟩ | ⟨a, tested, _, _, more, _⟩
      · exact gone (fewer.subset member)
      · rw [more, List.mem_append, List.mem_singleton] at member
        obtain rfl := member.resolve_left gone
        have unregistered := ((sound.accepts b).early (.inr (.inr ⟨_, tested⟩))).1
        exact absurd (unregistered.symm.trans already) (by simp)
    · exact absurd none (inTime tested before)

theorem StopServed.of_stopped (sound : Sound s) (kept : Stopped s) : StopServed s := by
  intro a stopped past
  cases registered : (s.accepts a).registered with
  | true =>
    obtain ⟨⟨ec, posts⟩, gone⟩ := kept a stopped registered
    exact ⟨gone, .inr ⟨ec, .inr posts⟩⟩
  | false =>
    refine ⟨fun member => absurd (registered.symm.trans (sound.waiting a member)) (by simp), ?_⟩
    have here := sound.accepts a
    unfold Accept.Sound at here
    unfold Accept.past at past
    have outcome : (s.accepts a).direct = true ∧ ((s.accepts a).dev.isSome = true ∧ (s.accepts a).ec = {} ∨
        (s.accepts a).dev = none ∧ (s.accepts a).ec = makeErrorCode .operationCanceled) := by
      split at here
      case h_5 => exact ⟨here.2.1, here.2.2.2.2⟩
      case h_6 => exact absurd (registered.symm.trans here.1) (by simp)
      case h_7 | h_8 =>
        have direct : (s.accepts a).direct = true := by simpa [registered] using here.1
        exact ⟨direct, (here.2.2 direct).2⟩
      all_goals simp_all
    rcases outcome.2 with ⟨given, _⟩ | ⟨_, ec⟩
    · exact .inl given
    · exact .inr ⟨ec, .inl outcome.1⟩

/-- Registering an accept whose stop callback has run leaves it waiting. -/
theorem stranded (late : ¬ StopsInTime s e) (h : machine.step s e = some s') : ¬ StopServed s' := by
  intro served
  replace h := (step_next h).1
  unfold StopsInTime at late
  split at late
  · rename_i a
    simp only [Classical.not_imp, not_not] at late
    obtain ⟨tested, stopped, none⟩ := late
    simp only [next, tested] at h
    obtain rfl := Option.some.inj h
    have after : awaitSuspend s a false =
        { (s.onAccept a .register).edit (s.mResumptions ++ [a]) with queued := s.queued ++ [a] } := by
      unfold awaitSuspend
      rw [if_neg Bool.false_ne_true, none]
      rfl
    rw [after] at served
    have here := served a
    simp only [State.edit_accepts, State.onAccept_same] at here
    exact (here stopped rfl).1 (List.mem_append_right _ (List.mem_singleton_self a))
  · exact late trivial

/-- In a run every stop request is served exactly when no accept is registered after its stop callback has run. -/
theorem stop_served_iff (h : machine.run {} es = some s) :
    (∀ fs u, fs <+: es → machine.run {} fs = some u → StopServed u) ↔ machine.Meets StopsInTime {} es := by
  refine Machine.forall_prefix_iff (I := fun s => Sound s ∧ Ordered s ∧ Stopped s)
    (fun kept => .of_stopped kept.1 kept.2.2) ?_ ⟨sound_initial, ordered_initial, fun _ stopped => by cases stopped⟩ h
  rintro s e s' ⟨sound, ordered, stopped⟩ step
  have outcome := (step_outcome step).1
  constructor
  · intro served
    by_contra late
    exact stranded late step served
  · intro inTime
    exact ⟨sound_step sound outcome, ordered_step sound ordered outcome,
      stopped_step sound ordered stopped inTime outcome⟩

theorem stop_served_iff_waiting : ∃ s, machine.run {} (waits 0 ++ [.requestStop 0, .stopFn 0]) = some s ∧
    s.mResumptions = [] ∧
    ∀ fs u, fs <+: waits 0 ++ [.requestStop 0, .stopFn 0] → machine.run {} fs = some u → StopServed u :=
  ⟨_, rfl, rfl, (stop_served_iff rfl).mpr (by decide)⟩

/-- The stop callback runs between the stop test and the registration. -/
theorem stop_stranded : ∃ s, machine.run {}
    [.accept 0, .awaitReady 0, .stopTest 0, .requestStop 0, .stopFn 0, .awaitSuspend 0] = some s ∧
    (s.accepts 0).stopped = true ∧ (s.accepts 0).phase = .suspended ∧ 0 ∈ s.mResumptions ∧ (s.accepts 0).posts = 0 ∧
    (s.accepts 0).dev = none := ⟨_, rfl, rfl, rfl, by decide, rfl, rfl⟩

end CoUsb.Hotplug

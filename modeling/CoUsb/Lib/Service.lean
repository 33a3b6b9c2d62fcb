import CoUsb.Lib.Ranking

/-!
# A client and its server

Some steps of a client are taken by a server, while it attends to them; the server has steps of its own, which the
client may hold up. A server that gets round to its client whenever that waits leaves the client all its runs.
-/

structure Service (S E H F : Type*) where
  client : Machine S E
  server : Machine H F
  /-- The steps of the client that the server takes. -/
  served : E → Bool
  /-- The server attends to them. -/
  attends : H → Bool
  /-- The steps the client leaves to the server. -/
  allows : S → F → Bool

namespace Service

variable {S E H F : Type*} {v : Service S E H F} {s t : S} {h k : H} {gs : List (E ⊕ F)}

def step (v : Service S E H F) : S × H → E ⊕ F → Option (S × H)
  | (s, h), .inl e => if v.served e && !v.attends h then none else (v.client.step s e).map fun t => (t, h)
  | (s, h), .inr f => if v.allows s f then (v.server.step h f).map fun k => (s, k) else none

def machine (v : Service S E H F) : Machine (S × H) (E ⊕ F) := ⟨v.step⟩

/-- The steps of the client. -/
def clientEvents (gs : List (E ⊕ F)) : List E := gs.filterMap Sum.getLeft?

theorem step_client {e : E} (step : v.machine.step (s, h) (.inl e) = some (t, k)) :
    v.client.step s e = some t ∧ k = h ∧ (v.served e = true → v.attends h = true) := by
  change (if v.served e && !v.attends h then none else (v.client.step s e).map fun t => (t, h)) = some (t, k) at step
  rw [Option.ite_none_left_eq_some] at step
  obtain ⟨attended, step⟩ := step
  obtain ⟨_, taken, same⟩ := Option.map_eq_some_iff.mp step
  obtain ⟨rfl, rfl⟩ := Prod.mk.inj same
  exact ⟨taken, rfl, by simpa using attended⟩

theorem step_server {f : F} (step : v.machine.step (s, h) (.inr f) = some (t, k)) :
    v.server.step h f = some k ∧ t = s ∧ v.allows s f = true := by
  change (if v.allows s f then (v.server.step h f).map fun k => (s, k) else none) = some (t, k) at step
  rw [Option.ite_none_right_eq_some] at step
  obtain ⟨allowed, step⟩ := step
  obtain ⟨_, taken, same⟩ := Option.map_eq_some_iff.mp step
  obtain ⟨rfl, rfl⟩ := Prod.mk.inj same
  exact ⟨taken, rfl, allowed⟩

theorem client_step {e : E} (step : v.client.step s e = some t) (attended : v.served e = true → v.attends h = true) :
    v.machine.step (s, h) (.inl e) = some (t, h) := by
  change (if v.served e && !v.attends h then none else (v.client.step s e).map fun t => (t, h)) = _
  rw [if_neg (by simpa using attended), step]
  rfl

theorem server_step {f : F} (step : v.server.step h f = some k) (allowed : v.allows s f = true) :
    v.machine.step (s, h) (.inr f) = some (s, k) := by
  change (if v.allows s f then (v.server.step h f).map fun k => (s, k) else none) = _
  rw [if_pos allowed, step]
  rfl

theorem server_run {fs : List F} (run : v.server.run h fs = some k) (allowed : ∀ f ∈ fs, v.allows s f = true) :
    v.machine.run (s, h) (fs.map .inr) = some (s, k) := by
  induction fs generalizing h with
  | nil => exact Option.some.inj run ▸ rfl
  | cons f fs ih =>
    obtain ⟨l, first, later⟩ := Machine.run_cons.mp run
    exact Machine.run_cons.mpr ⟨(s, l), server_step first (allowed f List.mem_cons_self),
      ih later fun g member => allowed g (List.mem_cons_of_mem _ member)⟩

/-- The client takes part in a run of the whole with a run of its own. -/
theorem client_run (run : v.machine.run (s, h) gs = some (t, k)) : v.client.run s (clientEvents gs) = some t := by
  induction gs generalizing s h with
  | nil =>
    obtain ⟨rfl, _⟩ := Prod.mk.inj (Option.some.inj run)
    rfl
  | cons g gs ih =>
    obtain ⟨⟨u, l⟩, first, later⟩ := Machine.run_cons.mp run
    cases g with
    | inl e => exact Machine.run_cons.mpr ⟨u, (step_client first).1, ih later⟩
    | inr f =>
      obtain ⟨_, rfl, _⟩ := step_server first
      exact ih later

/-- A run without steps of the client is one of the server. -/
theorem silent_run (run : v.machine.run (s, h) gs = some (t, k)) (silent : clientEvents gs = []) :
    ∃ fs, gs = fs.map .inr ∧ t = s ∧ v.server.run h fs = some k := by
  induction gs generalizing s h with
  | nil =>
    obtain ⟨rfl, rfl⟩ := Prod.mk.inj (Option.some.inj run)
    exact ⟨[], rfl, rfl, rfl⟩
  | cons g gs ih =>
    obtain ⟨⟨u, l⟩, first, later⟩ := Machine.run_cons.mp run
    cases g with
    | inl e => cases silent
    | inr f =>
      obtain ⟨step, rfl, _⟩ := step_server first
      obtain ⟨fs, rfl, rfl, rest⟩ := ih later silent
      exact ⟨f :: fs, rfl, rfl, Machine.run_cons.mpr ⟨l, step, rest⟩⟩

/-- What comes to an end in the server does so in the whole, when the client leaves it to the server. -/
theorem endsWithin {own : F → Bool} {final : H → Prop} {n : Nat} (ends : Machine.EndsWithin v.server own final n h)
    (allowed : ∀ f, own f = true → v.allows s f = true) :
    Machine.EndsWithin v.machine (Sum.elim (fun _ => false) own) (fun x => x.1 = s ∧ final x.2) n (s, h) := by
  rintro gs ⟨t, k⟩ all run
  have silent : clientEvents gs = [] := by
    refine List.filterMap_eq_nil_iff.mpr fun g member => ?_
    cases g with
    | inl e => cases all _ member
    | inr f => rfl
  obtain ⟨fs, rfl, rfl, alone⟩ := silent_run run silent
  obtain ⟨few, goes⟩ := ends fs k (fun f member => all (.inr f) (List.mem_map_of_mem member)) alone
  refine ⟨by simpa using few, goes.imp (fun final => ⟨rfl, final⟩) ?_⟩
  rintro ⟨f, l, here, step⟩
  exact ⟨.inr f, (t, l), here, server_step step (allowed f here)⟩

/-- When the server gets round to every step it has to take for the client, each run of the client is part of a run of
the whole. -/
theorem run_client {I : S × H → Prop} {es : List E} (keep : ∀ {x g y}, I x → v.machine.step x g = some y → I y)
    (round : ∀ s h e t, I (s, h) → v.client.step s e = some t → v.served e = true →
      ∃ fs k, v.server.run h fs = some k ∧ (∀ f ∈ fs, v.allows s f = true) ∧ v.attends k = true)
    (start : I (s, h)) (run : v.client.run s es = some t) :
    ∃ gs k, v.machine.run (s, h) gs = some (t, k) ∧ clientEvents gs = es := by
  induction es generalizing s h with
  | nil =>
    obtain rfl := Option.some.inj run
    exact ⟨[], h, rfl, rfl⟩
  | cons e es ih =>
    obtain ⟨u, first, later⟩ := Machine.run_cons.mp run
    obtain ⟨fs, k, turn, attended⟩ : ∃ (fs : List F) (k : H), v.machine.run (s, h) (fs.map .inr) = some (s, k) ∧
        (v.served e = true → v.attends k = true) := by
      cases needed : v.served e with
      | false => exact ⟨[], h, rfl, by simp⟩
      | true =>
        obtain ⟨fs, k, turn, allowed, attended⟩ := round s h e u start first needed
        exact ⟨fs, k, server_run turn allowed, fun _ => attended⟩
    have step := client_step first attended
    obtain ⟨gs, l, rest, same⟩ := ih (keep (Machine.run_invariant keep start turn) step) later
    refine ⟨fs.map .inr ++ .inl e :: gs, l, ?_, ?_⟩
    · exact Machine.run_append_some.mpr ⟨_, turn, Machine.run_cons.mpr ⟨_, step, rest⟩⟩
    · have silent : clientEvents (fs.map .inr : List (E ⊕ F)) = [] := by simp [clientEvents]
      rw [clientEvents, List.filterMap_append, ← clientEvents, silent]
      exact congrArg (e :: ·) same

end Service

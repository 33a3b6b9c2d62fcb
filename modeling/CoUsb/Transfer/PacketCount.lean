import CoUsb.Transfer.ByteCount

/-!
# The byte count over packets

For transfers of every type: what a callback adds to the count of `await_resume`. Both awaitables add the packets of an
isochronous transfer that has completed; of one that has not, `sequence_awaitable` adds the first packet only.
-/

namespace CoUsb.Transfer

variable {σ : Type} {P : Pump σ} {q : Request} {s s' : State σ} {e : Event} {es : List Event} {ec : ErrorCode}
  {t n : Nat} {w : LibusbTransfer → Nat}

def packetBytes (packets : List IsoPacket) : Nat := (packets.map IsoPacket.actualLength).sum

/-- What a callback of `sequence_awaitable` adds. -/
def SequenceAwaitable.bytes (tfer : LibusbTransfer) : Nat :=
  if tfer.type = .isochronous then
    packetBytes (if tfer.status = .completed then tfer.isoPackets else tfer.isoPackets.take 1)
  else tfer.actualLength

/-- What a callback of `complete_sequence_awaitable` adds. -/
def CompleteSequenceAwaitable.bytes (tfer : LibusbTransfer) : Nat :=
  if tfer.type = .isochronous then packetBytes tfer.isoPackets else tfer.actualLength

/-- The callbacks that found no error stored, each weighed by `w`. -/
def Action.weight (w : LibusbTransfer → Nat) : Action → Nat
  | .callback _ tfer seen => if seen.isError then 0 else w tfer
  | _ => 0

def weighed (w : LibusbTransfer → Nat) (log : List Action) : Nat := ((callbacks log).map (Action.weight w)).sum

/-! ### One callback -/

/-- What an awaitable adds for each callback. -/
structure Weighs (P : Pump σ) (q : Request) (w : LibusbTransfer → Nat) : Prop where
  start : P.total P.start = 0
  fill : ∀ p t tfer, P.total (P.fill p t tfer).1 = P.total p
  process : ∀ p t tfer, t < q.used → P.total p < 2 ^ 64 →
    P.total (P.process p t tfer).1 = sizeT (P.total p + w tfer)

/-- The weight of the running callback, which is not added yet. -/
def pendingWeight (w : LibusbTransfer → Nat) (s : State σ) : Nat :=
  match s.callback with
  | .entered t => w (s.tfers t)
  | .idle | .failing _ _ => 0

def Weighed (P : Pump σ) (w : LibusbTransfer → Nat) (s : State σ) : Prop :=
  ∃ n, P.total s.pump = sizeT n ∧ weighed w s.log = n + pendingWeight w s

theorem weighed_log (step : Step P q s e s') :
    weighed w s'.log = weighed w s.log + ((called s e).map (Action.weight w)).sum := by
  rw [weighed, callbacks_step step, List.map_append, List.sum_append, weighed]

theorem Weighed.of_frame (before : Weighed P w s) (pump : P.total s'.pump = P.total s.pump)
    (log : weighed w s'.log = weighed w s.log) (pending : pendingWeight w s' = pendingWeight w s) : Weighed P w s' := by
  obtain ⟨n, total, counted⟩ := before
  exact ⟨n, pump.trans total, by rw [log, counted, pending]⟩

theorem Weighed.proceed (before : Weighed P w s) (entered : s.callback = .entered t)
    (pump : P.total s'.pump = sizeT (P.total s.pump + w (s.tfers t))) (log : weighed w s'.log = weighed w s.log)
    (left : pendingWeight w s' = 0) : Weighed P w s' := by
  obtain ⟨n, total, counted⟩ := before
  have pending : pendingWeight w s = w (s.tfers t) := by rw [pendingWeight, entered]
  refine ⟨n + w (s.tfers t), ?_, by rw [log, counted, pending, left, Nat.add_zero]⟩
  rw [pump, total]
  exact Word.wrap_wrap_add ..

theorem weighed_step (weighs : Weighs P q w) (counted : Counted q s) (before : Weighed P w s) (step : Step P q s e s') :
    Weighed P w s' := by
  have log : weighed w s'.log = _ := weighed_log step
  have process : ∀ {u pump next}, s.callback = .entered u → P.process s.pump u (s.tfers u) = (pump, next) →
      P.total pump = sizeT (P.total s.pump + w (s.tfers u)) := by
    intro u pump next entered exit
    obtain ⟨m, total, _⟩ := before
    have small : P.total s.pump < 2 ^ 64 := total ▸ Word.wrap_lt 64 m
    have after := weighs.process s.pump u (s.tfers u) (counted.lt_used (counted.entered entered).2) small
    rwa [exit] at after
  cases step with
  | ready | stopped | submitOk | submitFail | recordFailure | leaveLoop | requestStop | cancel | finishStop | resume =>
    exact before.of_frame rfl log rfl
  | filled at_start =>
    have free := (counted.untouched (by simp [State.started, at_start])).1
    refine before.of_frame ?_ log (by simp only [pendingWeight, fillLoop_callback, free])
    apply fillLoop_positions (I := fun _ u => P.total u.pump = P.total s.pump) rfl
    intro t u _ same
    exact (weighs.fill ..).trans same
  | complete u c cancelled flying =>
    refine before.of_frame rfl log ?_
    cases busy : s.callback with
    | idle | failing => simp only [pendingWeight, busy]
    | entered t =>
      have different : t ≠ u := counted.ne_of_flying flying (by rw [busy]; rfl)
      simp only [pendingWeight, busy, Function.update_of_ne different]
  | drain u free completed failed =>
    refine before.of_frame (by simp) ?_ (by simp [pendingWeight, free])
    simpa [called, Action.weight, failed] using log
  | enter u free completed fine =>
    obtain ⟨n, total, same⟩ := before
    rw [pendingWeight, free, Nat.add_zero] at same
    refine ⟨n, total, ?_⟩
    simpa [called, Action.weight, fine, same, pendingWeight] using log
  | proceedResume u r pump entered exit =>
    exact before.proceed entered (by rw [resumeOnZero_pump]; exact process entered exit) log (by simp [pendingWeight])
  | proceedFail u r pump ec entered exit => exact before.proceed entered (process entered exit) log rfl
  | resubmitOk u pump fresh tfer entered exit => exact before.proceed entered (process entered exit) log rfl
  | resubmitFail u r pump fresh tfer entered failed exit => exact before.proceed entered (process entered exit) log rfl
  | storeFailure u ec failing => exact before.of_frame (by simp) log (by simp [pendingWeight, failing])

theorem weighed_resumed (weighs : Weighs P q w) (h : (machine P q).run (initial P q) es = some s)
    (resumed : s.resumed = some (ec, n)) : n = sizeT (weighed w s.log) := by
  have kept : Counted q s ∧ Weighed P w s := by
    refine Machine.run_invariant (I := fun s => Counted q s ∧ Weighed P w s) ?_
      ⟨counted_initial P q, 0, weighs.start, rfl⟩ h
    rintro s e s' ⟨counted, before⟩ step
    exact ⟨counted_step counted (step_cases step), weighed_step weighs counted before (step_cases step)⟩
  obtain ⟨_, rfl, ended⟩ := resumed_with h resumed
  obtain ⟨_, m, total, same⟩ := kept
  rw [total, same, pendingWeight, ended.free, Nat.add_zero]

/-! ### The two awaitables -/

theorem packetLoop_completed (packets : List IsoPacket) {total : Nat} (small : total < 2 ^ 64) :
    (SequenceAwaitable.packetLoop .completed packets total).1 = sizeT (total + packetBytes packets) := by
  induction packets generalizing total with
  | nil => exact (Word.wrap_of_lt small).symm
  | cons packet packets ih =>
    have next := ih (Word.wrap_lt 64 (total + packet.actualLength))
    rw [sizeT, Word.wrap_wrap_add, Nat.add_assoc] at next
    exact next

theorem packetLoop_failed {status : TransferStatus} (packets : List IsoPacket) {total : Nat} (small : total < 2 ^ 64)
    (failed : status ≠ .completed) :
    (SequenceAwaitable.packetLoop status packets total).1 = sizeT (total + packetBytes (packets.take 1)) := by
  cases packets with
  | nil => exact (Word.wrap_of_lt small).symm
  | cons packet packets => simp [SequenceAwaitable.packetLoop, packetBytes, failed]

theorem sequenceAwaitable_count (p : SequenceState) (tfer : LibusbTransfer) (small : p.total < 2 ^ 64) :
    (SequenceAwaitable.count p tfer).1 = sizeT (p.total + SequenceAwaitable.bytes tfer) := by
  unfold SequenceAwaitable.count SequenceAwaitable.bytes
  split
  case isTrue =>
    split
    case isTrue completed => exact completed ▸ packetLoop_completed tfer.isoPackets small
    case isFalse failed => exact packetLoop_failed tfer.isoPackets small failed
  case isFalse => rfl

theorem sequenceAwaitable_weighs (q : Request) : Weighs (sequenceAwaitable q) q SequenceAwaitable.bytes := by
  refine ⟨rfl, fun _ _ _ => rfl, fun p t tfer _ small => ?_⟩
  refine Eq.trans ?_ (sequenceAwaitable_count p tfer small)
  rcases exit : (sequenceAwaitable q).process p t tfer with ⟨p', next⟩
  cases sequenceAwaitable_exit exit <;> rfl

theorem CompleteSequenceAwaitable.subtotal_eq (tfer : LibusbTransfer) (n : Nat) :
    sizeT (n + subtotal tfer) = sizeT (n + bytes tfer) := by
  have sum : ∀ (packets : List IsoPacket) (m : Nat),
      sizeT (n + packets.foldl (fun n packet => sizeT (n + packet.actualLength)) m) =
        sizeT (n + (m + packetBytes packets)) := by
    intro packets
    induction packets with
    | nil => exact fun _ => rfl
    | cons packet packets ih =>
      intro m
      rw [List.foldl_cons, ih, packetBytes, packetBytes, List.map_cons, List.sum_cons, Nat.add_left_comm n, sizeT,
        sizeT, sizeT, Word.wrap_wrap_add]
      congr 1
      omega
  unfold subtotal bytes
  split
  case isTrue => simpa using sum tfer.isoPackets 0
  case isFalse => rfl

theorem completeSequenceAwaitable_totals_bytes (q : Request) (limit : Nat) (p : CompleteState) (t : Nat)
    (tfer : LibusbTransfer) (u : Nat) :
    (((completeSequenceAwaitable q limit).process p t tfer).1.states u).total = Function.update
      (fun u => (p.states u).total) t (sizeT ((p.states t).total + CompleteSequenceAwaitable.bytes tfer)) u := by
  rw [← CompleteSequenceAwaitable.subtotal_eq]
  rcases exit : (completeSequenceAwaitable q limit).process p t tfer with ⟨p', next⟩
  by_cases same : u = t
  · subst u
    rw [Function.update_self]
    cases completeSequenceAwaitable_exit exit <;> simp [CompleteSequenceAwaitable.counted]
  · rw [Function.update_of_ne same]
    cases completeSequenceAwaitable_exit exit <;> simp [Function.update_of_ne same]

theorem completeSequenceAwaitable_weighs (q : Request) (limit : Nat) :
    Weighs (completeSequenceAwaitable q limit) q CompleteSequenceAwaitable.bytes := by
  have counts := completeSequenceAwaitable_counts q limit
  refine ⟨counts.start, counts.fill, fun p t tfer used _ => ?_⟩
  apply (CompleteSequenceAwaitable.total_eq _).trans
  rw [Finset.sum_congr rfl fun u _ => completeSequenceAwaitable_totals_bytes q limit p t tfer u]
  apply (Word.wrap_sum_update (fun u => (p.states u).total) (Finset.mem_range.mpr used) _).trans
  exact ((congrArg (fun n => sizeT (n + CompleteSequenceAwaitable.bytes tfer))
    (CompleteSequenceAwaitable.total_eq p)).trans (Word.wrap_wrap_add ..)).symm

/-- Whatever the types of the transfers, the count is that of the callbacks that found no error stored, of each its
bytes; `sequence_awaitable` leaves out the packets of a failed transfer behind its first. -/
theorem count_is_undrained_packets (q : Request) (limit : Nat) (es : List Event) :
    (∀ s ec n, (machine (sequenceAwaitable q) q).run (initial (sequenceAwaitable q) q) es = some s →
      s.resumed = some (ec, n) → n = sizeT (weighed SequenceAwaitable.bytes s.log)) ∧
    (∀ s ec n, (machine (completeSequenceAwaitable q limit) q).run (initial (completeSequenceAwaitable q limit) q) es =
      some s → s.resumed = some (ec, n) → n = sizeT (weighed CompleteSequenceAwaitable.bytes s.log)) :=
  ⟨fun _ _ _ => weighed_resumed (sequenceAwaitable_weighs q),
    fun _ _ _ => weighed_resumed (completeSequenceAwaitable_weighs q limit)⟩

/-- Two isochronous transfers of two packets each. -/
def twoIsochronous : Request :=
  { twoBulk with prefilled := fun _ => { type := .isochronous, isoPackets := [⟨0, .completed⟩, ⟨0, .completed⟩] } }

/-- The first transfer completes, the second fails with three bytes in its second packet. -/
def completionThenFailure : List Event :=
  [.suspend, .submit 0, .submit 0, .leaveLoop, .complete 0 ⟨.completed, 0, [⟨2, .completed⟩, ⟨2, .completed⟩]⟩,
    .complete 1 ⟨.error, 0, [⟨1, .completed⟩, ⟨3, .error⟩]⟩, .callback 0, .proceed 0, .callback 1, .proceed 0,
    .storeFailure, .resume]

theorem count_is_undrained_packets_two_isochronous :
    (∃ s, (machine (sequenceAwaitable twoIsochronous) twoIsochronous).run
      (initial (sequenceAwaitable twoIsochronous) twoIsochronous) completionThenFailure = some s ∧
      5 = sizeT (weighed SequenceAwaitable.bytes s.log)) ∧
    (∃ s, (machine (completeSequenceAwaitable twoIsochronous 4) twoIsochronous).run
      (initial (completeSequenceAwaitable twoIsochronous 4) twoIsochronous) completionThenFailure = some s ∧
      8 = sizeT (weighed CompleteSequenceAwaitable.bytes s.log)) :=
  ⟨⟨_, rfl, (count_is_undrained_packets twoIsochronous 4 completionThenFailure).1 _ _ 5 rfl rfl⟩,
    ⟨_, rfl, (count_is_undrained_packets twoIsochronous 4 completionThenFailure).2 _ _ 8 rfl rfl⟩⟩

end CoUsb.Transfer

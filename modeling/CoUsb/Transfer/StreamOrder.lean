import CoUsb.Lib.Blocks
import CoUsb.Transfer.CompleteBuffers

/-!
# The byte order of a complete operation

Each buffer is submitted from its first byte on, without a gap, and in full where its transfer
stays with it. The buffers of different transfers interleave, unless only the last one takes
several submissions.
-/

namespace CoUsb.Transfer

variable {q : Request} {limit : Nat} {s s' : State CompleteState} {e : Event} {es : List Event} {ec : ErrorCode}
  {t j n : Nat}

/-! ### Submitted bytes -/

/-- The bytes a transfer covers. -/
def windowOf (tfer : LibusbTransfer) : List Pointer := (List.range tfer.length.toNat).map (tfer.buffer + ·)

def Action.window : Action → List Pointer
  | .submit _ _ tfer _ => windowOf tfer
  | _ => []

/-- The windows in the order of the submissions. -/
def stream (log : List Action) : List Pointer := (submissions log).flatMap Action.window

/-- Those in buffer `j`. -/
def part (log : List Action) (j : Nat) : List Pointer := Blocks.block Pointer.buffer j (stream log)

def firstBytes (j n : Nat) : List Pointer := (List.range n).map fun i => ⟨j, i⟩

def bytesOf (q : Request) (j : Nat) : List Pointer := firstBytes j (q.sizes.getD j 0)

/-- The concatenation of the buffers. -/
def sequenceBytes (q : Request) : List Pointer := (List.range q.sizes.length).flatMap (bytesOf q)

theorem windowOf_buffer {tfer : LibusbTransfer} : ∀ p ∈ windowOf tfer, p.buffer = tfer.buffer.buffer := by
  intro p member
  obtain ⟨i, _, rfl⟩ := List.mem_map.mp member
  rfl

theorem firstBytes_window (tfer : LibusbTransfer) :
    firstBytes tfer.buffer.buffer tfer.buffer.offset ++ windowOf tfer =
      firstBytes tfer.buffer.buffer (tfer.buffer.offset + tfer.length.toNat) := by
  rw [firstBytes, firstBytes, List.range_add, List.map_append, List.map_map]
  rfl

theorem submitted_eq (log : List Action) (t : Nat) : submitted log t = submitted (submissions log) t := by
  induction log with
  | nil => rfl
  | cons a log ih =>
    cases a <;> simp_all [submitted, submissions, Action.submits, Action.launches]

theorem part_of_stream {log log' : List Action} {tfer : LibusbTransfer}
    (stream_eq : stream log' = stream log ++ windowOf tfer)
    (j : Nat) : part log' j = part log j ++ if tfer.buffer.buffer = j then windowOf tfer else [] := by
  rw [part, stream_eq, Blocks.block_append, part]
  split
  case isTrue here => rw [Blocks.block_same fun p member => (windowOf_buffer p member).trans here]
  case isFalse other =>
    rw [Blocks.block_other (l := windowOf tfer) fun p member => (windowOf_buffer p member).trans_ne other]

/-! ### One buffer -/

/-- The bytes submitted of each buffer are its first ones, up to the end of the window of
the transfer that holds it. -/
structure Sent (q : Request) (s : State CompleteState) : Prop where
  waiting : ∀ t, Live q s t → submitted s.log t = false →
    part s.log (bufferOf s.tfers t) = [] ∧ (s.pump.states t).ptr.offset = 0
  begun : ∀ t, Live q s t → submitted s.log t = true → part s.log (bufferOf s.tfers t) =
    firstBytes (bufferOf s.tfers t) ((s.pump.states t).ptr.offset + (s.tfers t).length.toNat)
  ahead : ∀ j, s.pump.bufCurrent ≤ j → part s.log j = []
  first : ∀ j, ∃ n, n ≤ q.sizes.getD j 0 ∧ deliveredTo s.log j ≤ n ∧ part s.log j = firstBytes j n

theorem Sent.of_quiet (sent : Sent q s) (quiet : Quiet q s s') (submits : submissions s'.log = submissions s.log) :
    Sent q s' := by
  have parts : part s'.log = part s.log := by
    funext j
    rw [part, stream, submits, part, stream]
  have launched : ∀ t, submitted s'.log t = submitted s.log t := fun t => by
    rw [submitted_eq, submits, ← submitted_eq]
  refine ⟨fun t live h => ?_, fun t live h => ?_, fun j later => ?_, fun j => ?_⟩
  · rw [parts, quiet.buffer, quiet.pump]
    exact sent.waiting t ((quiet.live t).mp live) ((launched t).symm.trans h)
  · rw [parts, quiet.buffer, quiet.pump, (quiet.tfers t).2]
    exact sent.begun t ((quiet.live t).mp live) ((launched t).symm.trans h)
  · rw [quiet.pump] at later
    rw [parts]
    exact sent.ahead j later
  · rw [parts, quiet.delivered]
    exact sent.first j

theorem Sent.submit {prg : TransferProgress} {tfer : LibusbTransfer} (sent : Sent q s) (holding : Holding q s')
    (live : Live q s' t)
    (others : ∀ u, u ≠ t → Live q s' u → Live q s u ∧ bufferOf s.tfers u ≠ tfer.buffer.buffer)
    (stream_eq : stream s'.log = stream s.log ++ windowOf tfer)
    (launched : submitted s'.log t = true) (same : ∀ u, u ≠ t → submitted s'.log u = submitted s.log u)
    (states : s'.pump.states = Function.update s.pump.states t prg) (tfers : s'.tfers = Function.update s.tfers t tfer)
    (cur : s.pump.bufCurrent ≤ s'.pump.bufCurrent) (taken : tfer.buffer.buffer < s'.pump.bufCurrent)
    (calls : callbacks s'.log = callbacks s.log) (settled : creditOf s' t = 0)
    (before : part s.log tfer.buffer.buffer = firstBytes tfer.buffer.buffer tfer.buffer.offset) : Sent q s' := by
  have parts := part_of_stream stream_eq
  have delivered : ∀ j, deliveredTo s'.log j = deliveredTo s.log j := fun j => by rw [deliveredTo, calls, deliveredTo]
  have after : part s'.log tfer.buffer.buffer =
      firstBytes tfer.buffer.buffer (tfer.buffer.offset + tfer.length.toNat) := by
    rw [parts, if_pos rfl, before, firstBytes_window]
  have progress := holding.live t live
  rw [states, tfers, bufferOf_update_self, Function.update_self, Function.update_self, settled] at progress
  have ptr := progress.ptr
  have other : ∀ u, u ≠ t → Live q s' u → part s'.log (bufferOf s'.tfers u) = part s.log (bufferOf s.tfers u) := by
    intro u different h
    rw [tfers, bufferOf_update_of_ne different, parts, if_neg (others u different h).2.symm, List.append_nil]
  refine ⟨fun u h fresh => ?_, fun u h done => ?_, fun j later => ?_, fun j => ?_⟩
  · have different : u ≠ t := fun own => by simp [own, launched] at fresh
    rw [other u different h, states, Function.update_of_ne different]
    exact sent.waiting u (others u different h).1 ((same u different).symm.trans fresh)
  · by_cases own : u = t
    · subst u
      rw [tfers, states, bufferOf_update_self, Function.update_self, Function.update_self, after, ptr]
    · rw [other u own h, tfers, states, bufferOf_update_of_ne own, Function.update_of_ne own, Function.update_of_ne own]
      exact sent.begun u (others u own h).1 ((same u own).symm.trans done)
  · rw [parts, if_neg (taken.trans_le later).ne, List.append_nil]
    exact sent.ahead j (cur.trans later)
  · by_cases here : tfer.buffer.buffer = j
    · subst j
      have room := progress.room
      have got := progress.got
      rw [← ptr] at room got
      exact ⟨_, room, by omega, after⟩
    · rw [parts, if_neg here, List.append_nil, delivered]
      exact sent.first j

/-- The device moved all that was asked for. -/
def Exact (tfer : LibusbTransfer) : Prop := tfer.actualLength = tfer.length.toNat

@[simp] theorem stream_submit (log : List Action) (origin : Submitter) (t : Nat) (tfer : LibusbTransfer) (r : Int) :
    stream (log ++ [.submit origin t tfer r]) = stream log ++ windowOf tfer := by
  simp [stream, Action.submits, Action.window]

theorem stream_again (log : List Action) (fresh : Bool) (t : Nat) (tfer : LibusbTransfer) (r : Int) :
    stream (log ++ (if fresh then [.take t tfer.buffer.buffer] else []) ++ [.submit .callback t tfer r]) =
      stream log ++ windowOf tfer := by
  rw [stream_submit]
  cases fresh <;> simp [stream, Action.submits]

theorem sent_filled (inv : CompleteInvariant q s) (holding : Holding q s) (at_start : s.suspend = .start)
    (sent : Sent q s) :
    Sent q (s.fill (completeSequenceAwaitable q limit) q) := by
  have unstarted : s.started = false := by simp [State.started, at_start]
  have zero := inv.handed.start unstarted
  obtain ⟨calls, submits⟩ := callbacks_fillLoop (completeSequenceAwaitable q limit) q.positions s
  have none : ∀ j, part (fillLoop (completeSequenceAwaitable q limit) q.positions s).log j = [] := by
    intro j
    rw [part, stream, submits]
    exact sent.ahead j (by omega)
  have fresh : ∀ t, submitted (fillLoop (completeSequenceAwaitable q limit) q.positions s).log t = false := fun t =>
    (submitted_fillLoop ..).trans (inv.counted.unlaunched unstarted t)
  refine ⟨fun t live _ => ⟨none _, ?_⟩, fun t _ h => ?_, fun j _ => none j, fun j => ⟨0, Nat.zero_le _, ?_, none j⟩⟩
  · obtain ⟨_, _, prg, _⟩ := (fillLoop_progress limit inv.handed at_start).2 t live.2.1
    dsimp only
    rw [prg]
    rfl
  · exact absurd ((fresh t).symm.trans h) (by simp)
  · dsimp only
    rw [deliveredTo, calls]
    exact (holding.ahead j (by omega)).le

theorem sent_submit {i : Nat} (inv : CompleteInvariant q s) (holding : Holding q s)
    (holding' : Holding q (s.launch i))
    (at_loop : s.suspend = .submitting i) (more : i ≠ q.used) (sent : Sent q s) :
    Sent q (s.launch i) := by
  obtain ⟨bound, launched⟩ := inv.counted.submitting at_loop
  have absent := (inv.counted.submitting at_loop).next
  have started : s.started = true := by simp [State.started, at_loop]
  have live : Live q s i := ⟨started, lt_of_le_of_ne bound more, Or.inl (Or.inr absent)⟩
  have work := (quiet_submit inv.counted at_loop).live
  obtain ⟨before, offset⟩ := sent.waiting i live absent
  refine sent.submit holding' ((work i).mpr live) (fun u different h => ?_) (stream_submit ..)
    (by simp [Action.launches])
    (fun u different => by simp [Action.launches, Ne.symm different]) (Function.update_eq_self i s.pump.states).symm
    (Function.update_eq_self i s.tfers).symm le_rfl (inv.handed.buffer_lt started live.2.1)
    (by simp [Action.isCallback]) (if_neg fun entered => ?_) ?_
  · have here := (work u).mp h
    exact ⟨here, fun shared => different (inv.handed.exclusive started here.2.1 live.2.1 shared)⟩
  · have entered : s.callback = .entered i := entered
    have launched := (inv.counted.entered entered).2
    exact absurd (launched.symm.trans absent) (by simp)
  · rw [(holding.live i live).ptr, offset, ← (holding.live i live).ptr]
    exact before

theorem sent_enter (inv : CompleteInvariant q s) (holding : Holding q s) (free : s.callback = .idle)
    (landed : s.flight t = .completed) (sent : Sent q s) :
    Sent q (s.enter t) := by
  have live := live_landed inv.counted landed
  have work := live_enter inv.counted free landed
  have same : ∀ u, submitted (s.log ++ [.callback t (s.tfers t) s.ec]) u = submitted s.log u := by
    simp [Action.launches]
  have parts : part (s.log ++ [.callback t (s.tfers t) s.ec]) = part s.log := by
    funext j
    simp [part, stream, Action.submits]
  refine ⟨fun u h fresh => ?_, fun u h done => ?_, fun j later => ?_, fun j => ?_⟩ <;> dsimp only <;> rw [parts]
  · exact sent.waiting u ((work u).mp h) ((same u).symm.trans fresh)
  · exact sent.begun u ((work u).mp h) ((same u).symm.trans done)
  · exact sent.ahead j later
  · rw [deliveredTo_callback]
    split
    case isFalse => exact sent.first j
    case isTrue here =>
      have here : bufferOf s.tfers t = j := here
      subst here
      obtain ⟨_, _, _, room, _, got⟩ := holding.live t live
      rw [(creditOf_free free t).2] at got
      have fits := inv.ordinary.landed landed
      have launched := inv.counted.flying t (by simp [landed])
      exact ⟨_, room, by omega, sent.begun t live launched⟩

theorem sent_finish {pump : CompleteState} (inv : CompleteInvariant q s) (entered : s.callback = .entered t)
    (states : pump.states = Function.update s.pump.states t (CompleteSequenceAwaitable.counted s.pump t (s.tfers t)))
    (cur : pump.bufCurrent = s.pump.bufCurrent) (sent : Sent q s) :
    Sent q (resumeOnZero { s with pump, callback := .idle }) := by
  have work := fun u => (live_finish pump inv.counted entered u).mp
  have parts : part (resumeOnZero { s with pump, callback := .idle }).log = part s.log := by
    funext j
    rw [part, stream, submissions_resumeOnZero, part, stream]
  have delivered : ∀ j, deliveredTo (resumeOnZero { s with pump, callback := .idle }).log j = deliveredTo s.log j := by
    simp [deliveredTo]
  refine ⟨fun u h fresh => ?_, fun u h done => ?_, fun j later => ?_, fun j => ?_⟩ <;> rw [parts]
  · obtain ⟨other, live⟩ := work u h
    simpa [states, Function.update_of_ne other] using sent.waiting u live (by simpa using fresh)
  · obtain ⟨other, live⟩ := work u h
    simpa [states, Function.update_of_ne other] using sent.begun u live (by simpa using done)
  · exact sent.ahead j (by simpa [cur] using later)
  · rw [delivered]
    exact sent.first j

theorem sent_resubmit {pump : CompleteState} {fresh : Bool} {tfer : LibusbTransfer} (plain : q.NonIsochronous)
    (inv : CompleteInvariant q s) (holding : Holding q s)
    (holding' : Holding q (s.resubmit t pump fresh tfer))
    (exact : Landed Exact s) (entered : s.callback = .entered t)
    (exit : (completeSequenceAwaitable q limit).process s.pump t (s.tfers t) = (pump, .submit fresh tfer))
    (sent : Sent q s) :
    Sent q (s.resubmit t pump fresh tfer) := by
  have launched := (inv.counted.entered entered).2
  have live := live_entered inv.counted entered
  have below := inv.handed.buffer_lt live.1 live.2.1
  have work := fun u => live_resubmit pump fresh tfer inv.counted entered u
  have again := submitted_again launched fresh tfer 0
  have calls : callbacks (s.log ++ (if fresh then [.take t tfer.buffer.buffer] else []) ++
      [.submit .callback t tfer 0]) = callbacks s.log := by simp [Action.isCallback]
  have done := (again t).trans launched
  have plain := inv.ordinary.entered plain inv.counted entered
  cases completeSequenceAwaitable_exit exit with
  | next =>
    refine sent.submit holding' ((work t).mpr live) (fun u _ h => ⟨(work u).mp h, ?_⟩) (stream_again ..) done
      (fun u _ => again u) rfl rfl (Nat.le_succ _) (Nat.lt_succ_self _) calls (creditOf_free rfl t).2 ?_
    · exact (inv.handed.buffer_lt live.1 ((work u).mp h).2.1).ne
    · exact (sent.ahead _ le_rfl).trans rfl
  | again =>
    have progress := holding.live t live
    have buffer : bufferOf s.tfers t = (s.pump.states t).ptr.buffer := congrArg Pointer.buffer progress.ptr
    have whole : (s.tfers t).actualLength = (s.tfers t).length.toNat := exact t (Or.inr entered)
    have begun := sent.begun t live launched
    rw [buffer, ← whole, ← CompleteSequenceAwaitable.subtotal_ordinary plain] at begun
    refine sent.submit holding' ((work t).mpr live) (fun u different h => ⟨(work u).mp h, fun shared => ?_⟩)
      (stream_again ..) done (fun u _ => again u) rfl rfl le_rfl ?_ calls (creditOf_free rfl t).2 begun
    · exact different (inv.handed.exclusive live.1 ((work u).mp h).2.1 live.2.1 (shared.trans buffer.symm))
    · exact buffer ▸ below

theorem sent_step (plain : q.NonIsochronous) (inv : CompleteInvariant q s) (holding : Holding q s)
    (holding' : Holding q s') (exact : Landed Exact s) (step : CleanStep q limit s e s') (sent : Sent q s) :
    Sent q s' := by
  cases step with
  | quiet quiet submits => exact sent.of_quiet quiet submits
  | filled at_start => exact sent_filled inv holding at_start sent
  | submit i at_loop more => exact sent_submit inv holding holding' at_loop more sent
  | enter t free landed => exact sent_enter inv holding free landed sent
  | finish t r pump entered exit =>
    cases completeSequenceAwaitable_exit exit with
    | finished => exact sent_finish inv entered rfl rfl sent
  | resubmit t pump fresh tfer entered exit => exact sent_resubmit plain inv holding holding' exact entered exit sent

/-! ### All buffers -/

/-- One submission covers buffer `j`. -/
def OneWindow (q : Request) (limit j : Nat) : Prop := (toInt (min (q.buffer j).size limit)).toNat = q.sizes.getD j 0

/-- A buffer that takes several submissions is one of the first, and no buffer is submitted
next to it. -/
def Alone (q : Request) (limit : Nat) : Prop :=
  ∀ j, j < q.sizes.length → ¬ OneWindow q limit j → j < q.used ∧ (q.used = 1 ∨ j + 1 = q.sizes.length)

instance (q : Request) (limit j : Nat) : Decidable (OneWindow q limit j) := inferInstanceAs (Decidable (_ = _))

instance (q : Request) (limit : Nat) : Decidable (Alone q limit) :=
  inferInstanceAs (Decidable (∀ j, j < q.sizes.length → ¬ _ → _))

/-- A callback takes a further buffer only after the first submission of every transfer. -/
def TakesAfterLoop (q : Request) (limit : Nat) (s : State CompleteState) : Event → Prop
  | .proceed _ => ∀ t, s.callback = .entered t →
      ((completeSequenceAwaitable q limit).process s.pump t (s.tfers t)).2.takes = true →
      ∀ u, u < q.used → submitted s.log u = true
  | _ => True

/-- The submissions so far are in the order of the buffers, and so are those to come. -/
structure InOrder (q : Request) (limit : Nat) (s : State CompleteState) : Prop where
  ordered : Blocks.Ordered Pointer.buffer (stream s.log)
  filled : ∀ t, Live q s t → q.used ≤ s.pump.bufCurrent
  behind : ∀ t, Live q s t → submitted s.log t = false → bufferOf s.tfers t = t ∧ ∀ p ∈ stream s.log, p.buffer ≤ t
  own : ∀ t, Live q s t → bufferOf s.tfers t < q.used →
    bufferOf s.tfers t = t ∧ (s.pump.states t).total = (s.pump.states t).ptr.offset
  single : q.used = 1 → ∀ t, Live q s t → bufferOf s.tfers t + 1 = s.pump.bufCurrent
  whole : ∀ t, Live q s t → OneWindow q limit (bufferOf s.tfers t) →
    (s.pump.states t).ptr.offset + (s.tfers t).length.toNat = q.sizes.getD (bufferOf s.tfers t) 0

theorem Sent.below (sent : Sent q s) : ∀ p ∈ stream s.log, p.buffer < s.pump.bufCurrent := by
  intro p member
  by_contra later
  have here : p ∈ part s.log p.buffer := List.mem_filter.mpr ⟨member, by simp⟩
  rw [sent.ahead p.buffer (Nat.not_lt.mp later)] at here
  cases here

theorem InOrder.of_frame (order : InOrder q limit s) (submits : submissions s'.log = submissions s.log)
    (cur : s'.pump.bufCurrent = s.pump.bufCurrent)
    (live : ∀ t, Live q s' t → Live q s t ∧ s'.pump.states t = s.pump.states t ∧
      (s'.tfers t).buffer = (s.tfers t).buffer ∧ (s'.tfers t).length = (s.tfers t).length) : InOrder q limit s' := by
  have same : stream s'.log = stream s.log := by rw [stream, submits, stream]
  have launched : ∀ t, submitted s'.log t = submitted s.log t := fun t => by
    rw [submitted_eq, submits, ← submitted_eq]
  have buffer : ∀ t, Live q s' t → bufferOf s'.tfers t = bufferOf s.tfers t := fun t h => by
    rw [bufferOf, (live t h).2.2.1, bufferOf]
  obtain ⟨ordered, filled, behind, own, single, whole⟩ := order
  refine ⟨by rwa [same], fun t h => by rw [cur]; exact filled t (live t h).1, fun t h fresh => ?_, fun t h first => ?_,
    fun one t h => ?_,
    fun t h one => ?_⟩
  · rw [same, buffer t h]
    exact behind t (live t h).1 ((launched t).symm.trans fresh)
  · rw [buffer t h] at first ⊢
    rw [(live t h).2.1]
    exact own t (live t h).1 first
  · rw [buffer t h, cur]
    exact single one t (live t h).1
  · rw [buffer t h] at one ⊢
    rw [(live t h).2.1, (live t h).2.2.2]
    exact whole t (live t h).1 one

/-- A callback that finds its buffer incomplete holds one of the first that takes several submissions. -/
theorem InOrder.several (order : InOrder q limit s) (alone : Alone q limit) (small : q.sizes.sum < 2 ^ 64)
    (plain : q.NonIsochronous) (inv : CompleteInvariant q s) (holding : Holding q s) (exact : Landed Exact s)
    (entered : s.callback = .entered t)
    (short : (CompleteSequenceAwaitable.counted s.pump t (s.tfers t)).total < (s.pump.states t).expected) :
    ¬ OneWindow q limit (bufferOf s.tfers t) ∧ bufferOf s.tfers t < q.used ∧
      (q.used = 1 ∨ bufferOf s.tfers t + 1 = q.sizes.length) := by
  have live := live_entered inv.counted entered
  have progress := holding.live t live
  have expected := progress.expected
  have carried := progress.carried
  have all : (s.tfers t).actualLength = (s.tfers t).length.toNat := exact t (Or.inr entered)
  rw [holding.counted small entered live.2.1 (inv.ordinary.entered plain inv.counted entered)] at short
  dsimp only at short
  have several : ¬ OneWindow q limit (bufferOf s.tfers t) := fun one => by
    have whole := order.whole t live one
    omega
  exact ⟨several, alone _ ((inv.handed.buffer_lt live.1 live.2.1).trans_le inv.handed.cur_le) several⟩

theorem InOrder.completes (order : InOrder q limit s) (alone : Alone q limit) (inv : CompleteInvariant q s)
    (holding : Holding q s) (exact : Landed Exact s) (e : Event) : Completes s e := by
  cases e with
  | proceed r =>
    intro t entered
    have live := live_entered inv.counted entered
    by_cases one : OneWindow q limit (bufferOf s.tfers t)
    · have all : (s.tfers t).actualLength = (s.tfers t).length.toNat := exact t (Or.inr entered)
      rw [all, (holding.live t live).expected]
      exact Or.inr (order.whole t live one)
    · have bound := (inv.handed.buffer_lt live.1 live.2.1).trans_le inv.handed.cur_le
      exact Or.inl (order.own t live (alone _ bound one).1).2
  | _ => trivial

theorem inOrder_filled (inv : CompleteInvariant q s) (holding : Holding q s) (sent : Sent q s)
    (at_start : s.suspend = .start) :
    InOrder q limit (s.fill (completeSequenceAwaitable q limit) q) := by
  have zero := inv.handed.start (by simp [State.started, at_start])
  have sequential := completeSequenceAwaitable_sequential q limit
  obtain ⟨cur, _, assigned⟩ := fillLoop_assigns sequential inv.handed at_start
  obtain ⟨totals, given⟩ := fillLoop_progress limit inv.handed at_start
  have none : stream (fillLoop (completeSequenceAwaitable q limit) q.positions s).log = [] := by
    rw [stream, (callbacks_fillLoop (completeSequenceAwaitable q limit) q.positions s).2]
    exact List.eq_nil_iff_forall_not_mem.mpr fun p member => absurd (sent.below p member) (by omega)
  have nothing : ∀ t, t < q.used → (s.pump.states t).total = 0 := by
    have sum := Nat.eq_zero_of_add_eq_zero_right (holding.totals.trans (holding.nothing_moved zero))
    exact fun t used => Finset.sum_eq_zero_iff.mp sum t (Finset.mem_range.mpr used)
  have buffer : ∀ t, t < q.used → bufferOf (fillLoop (completeSequenceAwaitable q limit) q.positions s).tfers t = t :=
    fun t used => (assigned t used).1
  refine ⟨by rw [none]; exact List.Pairwise.nil, fun _ _ => cur.ge,
    fun t live _ => ⟨buffer t live.2.1, fun p member => ?_⟩,
    fun t live _ => ⟨buffer t live.2.1, ?_⟩, fun one t live => ?_, fun t live one => ?_⟩
  · rw [none] at member
    cases member
  · obtain ⟨_, _, prg, _⟩ := given t live.2.1
    refine (totals t).trans ((nothing t live.2.1).trans ?_)
    dsimp only
    rw [prg]
    rfl
  · have used := live.2.1
    exact (congrArg (· + 1) (buffer t used)).trans (by dsimp only; omega)
  · obtain ⟨_, _, prg, tfer⟩ := given t live.2.1
    dsimp only at one ⊢
    rw [buffer t live.2.1] at one ⊢
    rw [prg, tfer]
    exact (Nat.zero_add _).trans one

theorem inOrder_submit {i : Nat} (inv : CompleteInvariant q s) (at_loop : s.suspend = .submitting i) (more : i ≠ q.used)
    (order : InOrder q limit s) :
    InOrder q limit (s.launch i) := by
  obtain ⟨bound, launched⟩ := inv.counted.submitting at_loop
  have absent := (inv.counted.submitting at_loop).next
  have started : s.started = true := by simp [State.started, at_loop]
  have live : Live q s i := ⟨started, lt_of_le_of_ne bound more, Or.inl (Or.inr absent)⟩
  have work := fun u => ((quiet_submit inv.counted at_loop).live u).mp
  obtain ⟨ordered, filled, behind, own, single, whole⟩ := order
  obtain ⟨first, below⟩ := behind i live absent
  have window : ∀ p ∈ windowOf (s.tfers i), p.buffer = i := fun p member => (windowOf_buffer p member).trans first
  refine ⟨?_, fun u h => filled u (work u h), fun u h fresh => ?_, fun u h => own u (work u h),
    fun one u h => single one u (work u h), fun u h => whole u (work u h)⟩
  · dsimp only
    rw [stream_submit]
    exact ordered.append window below
  · have earlier : submitted s.log u = false :=
      (Bool.or_eq_false_iff.mp ((submitted_append s.log _ u).symm.trans fresh)).1
    obtain ⟨same, before⟩ := behind u (work u h) earlier
    refine ⟨same, fun p member => ?_⟩
    dsimp only at member
    rw [stream_submit, List.mem_append] at member
    rcases member with old | new
    · exact before p old
    · have later : ¬ u < i := fun h => absurd ((launched u).mpr h) (by simp [earlier])
      exact (window p new).le.trans (Nat.not_lt.mp later)

theorem InOrder.submit {prg : TransferProgress} {tfer : LibusbTransfer} (order : InOrder q limit s) (used : t < q.used)
    (all : ∀ u, u < q.used → submitted s'.log u = true) (live : ∀ u, Live q s' u → Live q s u)
    (stream_eq : stream s'.log = stream s.log ++ windowOf tfer) (filled : q.used ≤ s'.pump.bufCurrent)
    (states : s'.pump.states = Function.update s.pump.states t prg) (tfers : s'.tfers = Function.update s.tfers t tfer)
    (below : ∀ p ∈ stream s.log, p.buffer ≤ tfer.buffer.buffer)
    (own : tfer.buffer.buffer < q.used → tfer.buffer.buffer = t ∧ prg.total = prg.ptr.offset)
    (single : q.used = 1 → tfer.buffer.buffer + 1 = s'.pump.bufCurrent)
    (whole : OneWindow q limit tfer.buffer.buffer →
      prg.ptr.offset + tfer.length.toNat = q.sizes.getD tfer.buffer.buffer 0) : InOrder q limit s' := by
  refine ⟨?_, fun _ _ => filled, fun u h fresh => ?_, fun u h first => ?_, fun one u h => ?_, fun u h one => ?_⟩
  · rw [stream_eq]
    exact order.ordered.append windowOf_buffer below
  · exact absurd ((all u h.2.1).symm.trans fresh) (by simp)
  · rw [states]
    rw [tfers] at first ⊢
    by_cases same : u = t
    · subst u
      rw [bufferOf_update_self] at first ⊢
      rw [Function.update_self]
      exact own first
    · rw [bufferOf_update_of_ne same] at first ⊢
      rw [Function.update_of_ne same]
      exact order.own u (live u h) first
  · have same : u = t := by
      have bound := h.2.1
      omega
    rw [same, tfers, bufferOf_update_self]
    exact single one
  · rw [states]
    rw [tfers] at one ⊢
    by_cases same : u = t
    · subst u
      rw [bufferOf_update_self] at one ⊢
      rw [Function.update_self, Function.update_self]
      exact whole one
    · rw [bufferOf_update_of_ne same] at one ⊢
      rw [Function.update_of_ne same, Function.update_of_ne same]
      exact order.whole u (live u h) one

/-- A transfer that continues with its buffer is the last one submitted. -/
theorem InOrder.last (order : InOrder q limit s) (inv : CompleteInvariant q s) (sent : Sent q s)
    (entered : s.callback = .entered t) (first : bufferOf s.tfers t < q.used)
    (only : q.used = 1 ∨ bufferOf s.tfers t + 1 = q.sizes.length) :
    (∀ u, u < q.used → submitted s.log u = true) ∧ ∀ p ∈ stream s.log, p.buffer ≤ bufferOf s.tfers t := by
  have live := live_entered inv.counted entered
  obtain ⟨k, _, launched⟩ := inv.counted.looped.launched
  have before := (launched t).mp (inv.counted.entered entered).2
  have same := (order.own t live first).1
  have bound := q.used_le_length
  have cur := inv.handed.cur_le
  refine ⟨fun u used => (launched u).mpr ?_, fun p member => ?_⟩
  · rcases only with one | final <;> omega
  · have below := sent.below p member
    rcases only with one | final
    · have next := order.single one t live
      omega
    · omega

theorem inOrder_resubmit {pump : CompleteState} {fresh : Bool} {tfer : LibusbTransfer} (alone : Alone q limit)
    (small : q.sizes.sum < 2 ^ 64) (plain : q.NonIsochronous) (inv : CompleteInvariant q s) (holding : Holding q s)
    (exact : Landed Exact s) (late : TakesAfterLoop q limit s (.proceed 0)) (sent : Sent q s)
    (entered : s.callback = .entered t)
    (exit : (completeSequenceAwaitable q limit).process s.pump t (s.tfers t) = (pump, .submit fresh tfer))
    (order : InOrder q limit s) :
    InOrder q limit (s.resubmit t pump fresh tfer) := by
  have launched := (inv.counted.entered entered).2
  have live := live_entered inv.counted entered
  have work := fun u => (live_resubmit pump fresh tfer inv.counted entered u).mp
  have again := submitted_again launched fresh tfer 0
  have plain' := inv.ordinary.entered plain inv.counted entered
  have filled := order.filled t live
  have late := late t
  have several := order.several alone small plain inv holding exact entered
  cases completeSequenceAwaitable_exit exit with
  | next =>
    have all := late entered (by rw [exit]; rfl)
    exact order.submit live.2.1 (fun u used => (again u).trans (all u used)) work (stream_again ..)
      (filled.trans (Nat.le_succ _)) rfl rfl (fun p member => (sent.below p member).le)
      (fun first => absurd (first.trans_le filled) (lt_irrefl _)) (fun _ => rfl) fun one => (Nat.zero_add _).trans one
  | again _ short =>
    obtain ⟨parts, first, only⟩ := several short
    obtain ⟨all, below⟩ := order.last inv sent entered first only
    obtain ⟨same, total⟩ := order.own t live first
    have buffer : bufferOf s.tfers t = (s.pump.states t).ptr.buffer := congrArg Pointer.buffer (holding.live t live).ptr
    have exact := holding.counted small entered live.2.1 plain'
    rw [buffer] at parts below same
    refine order.submit live.2.1 (fun u used => (again u).trans (all u used)) work (stream_again ..) filled rfl rfl
      below (fun _ => ⟨same, ?_⟩) (fun one => ?_) fun one => absurd one parts
    · rw [exact, CompleteSequenceAwaitable.subtotal_ordinary plain']
      exact congrArg (· + (s.tfers t).actualLength) total
    · exact buffer ▸ order.single one t live

theorem inOrder_step (alone : Alone q limit) (small : q.sizes.sum < 2 ^ 64) (plain : q.NonIsochronous)
    (inv : CompleteInvariant q s) (holding : Holding q s) (exact : Landed Exact s) (late : TakesAfterLoop q limit s e)
    (sent : Sent q s) (step : CleanStep q limit s e s') (order : InOrder q limit s) : InOrder q limit s' := by
  cases step with
  | quiet quiet submits =>
    exact order.of_frame submits (congrArg CompleteState.bufCurrent quiet.pump) fun u h =>
      ⟨(quiet.live u).mp h, by rw [quiet.pump], quiet.tfers u⟩
  | filled at_start => exact inOrder_filled inv holding sent at_start
  | submit i at_loop more => exact inOrder_submit inv at_loop more order
  | enter t free landed =>
    exact order.of_frame (by simp [Action.submits]) rfl fun u h =>
      ⟨(live_enter inv.counted free landed u).mp h, rfl, rfl, rfl⟩
  | finish t r pump entered exit =>
    cases completeSequenceAwaitable_exit exit with
    | finished =>
      apply order.of_frame (by simp) (by simp)
      intro u h
      obtain ⟨other, live⟩ := (live_finish _ inv.counted entered u).mp h
      exact ⟨live, by simp [Function.update_of_ne other], by simp, by simp⟩
  | resubmit t pump fresh tfer entered exit =>
    exact inOrder_resubmit alone small plain inv holding exact late sent entered exit order

/-! ### Runs in which the device moves all it is asked for -/

def MovesAll (s : State CompleteState) : Event → Prop
  | .complete t c => c.actualLength = (s.tfers t).length.toNat
  | _ => True

instance (s : State CompleteState) : ∀ e, Decidable (MovesAll s e)
  | .complete t c => inferInstanceAs (Decidable (c.actualLength = (s.tfers t).length.toNat))
  | .suspend | .submit _ | .recordFailure | .leaveLoop | .callback _ | .proceed _ | .storeFailure | .requestStop
  | .cancel | .finishStop | .resume => isTrue trivial

instance (q : Request) (limit : Nat) (s : State CompleteState) : ∀ e, Decidable (TakesAfterLoop q limit s e)
  | .proceed _ => inferInstanceAs (Decidable (∀ t, s.callback = .entered t → _ → ∀ u, u < q.used → _))
  | .suspend | .submit _ | .recordFailure | .leaveLoop | .complete _ _ | .callback _ | .storeFailure | .requestStop
  | .cancel | .finishStop | .resume => isTrue trivial

theorem exact_run (movesAll : (machine (completeSequenceAwaitable q limit) q).Meets MovesAll
      (initial (completeSequenceAwaitable q limit) q) es) :
    (machine (completeSequenceAwaitable q limit) q).Meets (fun s _ => Landed Exact s)
      (initial (completeSequenceAwaitable q limit) q) es := by
  have kept := movesAll.with_invariant (I := fun s => Counted q s ∧ Landed Exact s)
    (fun ⟨counted, exact⟩ all step => ⟨counted_step counted (step_cases step),
      landed_step counted exact (step_cases step) fun t c same _ => by subst same; exact all⟩)
    ⟨counted_initial _ q, by simp [Landed, initial]⟩
  exact fun fs e t initial h => (kept fs e t initial h).1.2

theorem sent_initial (q : Request) (limit : Nat) : Sent q (initial (completeSequenceAwaitable q limit) q) :=
  ⟨fun _ live => absurd live.1 (by simp [initial, State.started]),
    fun _ live => absurd live.1 (by simp [initial, State.started]), fun _ _ => rfl,
    fun _ => ⟨0, Nat.zero_le _, le_rfl, rfl⟩⟩

theorem inOrder_initial (q : Request) (limit : Nat) :
    InOrder q limit (initial (completeSequenceAwaitable q limit) q) := by
  have idle : ∀ t, ¬ Live q (initial (completeSequenceAwaitable q limit) q) t := fun t live =>
    absurd live.1 (by simp [initial, State.started])
  exact ⟨.nil, fun t live => absurd live (idle t), fun t live => absurd live (idle t),
    fun t live => absurd live (idle t), fun _ t live => absurd live (idle t), fun t live => absurd live (idle t)⟩

/-- A buffer that was moved in full was submitted in full. -/
theorem Sent.whole (sent : Sent q s) (cur : s.pump.bufCurrent = q.sizes.length)
    (delivered : ∀ j, j < q.sizes.length → deliveredTo s.log j = q.sizes.getD j 0) (j : Nat) :
    part s.log j = bytesOf q j := by
  by_cases bound : j < q.sizes.length
  · obtain ⟨n, le, ge, first⟩ := sent.first j
    have full := delivered j bound
    have whole : n = q.sizes.getD j 0 := by omega
    exact first.trans (whole ▸ rfl)
  · have none : q.sizes.getD j 0 = 0 := by simp [Nat.not_lt.mp bound]
    rw [sent.ahead j (by omega), bytesOf, none]
    rfl

/-- Buffers that are submitted one after the other, each in full, make up the sequence. -/
theorem stream_eq_sequence (sent : Sent q s) (ordered : Blocks.Ordered Pointer.buffer (stream s.log))
    (cur : s.pump.bufCurrent = q.sizes.length) (whole : ∀ j, part s.log j = bytesOf q j) :
    stream s.log = sequenceBytes q := by
  have blocks := ordered.eq_blocks (n := q.sizes.length) (cur ▸ sent.below)
  exact blocks.trans (List.flatMap_congr fun j _ => whole j)

/-- A run without an error in which the device moves all it is asked for takes the buffers in
order. It submits each in full, from its first byte to its last, where no transfer leaves a
buffer too early, and the whole sequence in order where only the last buffer takes several
submissions. -/
theorem submitted_bytes_follow_the_buffers (q : Request) (limit : Nat) (es : List Event) (s : State CompleteState)
    (ec : ErrorCode) (n : Nat) (plain : q.NonIsochronous) (some_buffer : 0 < q.sizes.length)
    (some_transfer : 0 < q.transfers) (small : q.sizes.sum < 2 ^ 64)
    (h : (machine (completeSequenceAwaitable q limit) q).run (initial (completeSequenceAwaitable q limit) q) es =
      some s) (resumed : s.resumed = some (ec, n)) (fine : ec.isError = false)
    (movesAll : (machine (completeSequenceAwaitable q limit) q).Meets MovesAll
      (initial (completeSequenceAwaitable q limit) q) es) :
    takes s.log = List.range q.sizes.length ∧
    ((machine (completeSequenceAwaitable q limit) q).Meets Completes
      (initial (completeSequenceAwaitable q limit) q) es → ∀ j, part s.log j = bytesOf q j) ∧
    (Alone q limit → (machine (completeSequenceAwaitable q limit) q).Meets (TakesAfterLoop q limit)
      (initial (completeSequenceAwaitable q limit) q) es → stream s.log = sequenceBytes q) := by
  have unready : (completeSequenceAwaitable q limit).ready (completeSequenceAwaitable q limit).start = false :=
    decide_eq_false (Nat.not_le.mpr some_buffer)
  obtain ⟨fine, _, settled⟩ := resumed_fine h unready resumed fine
  have clean := settled.clean fine
  have inv := complete_run plain small h
  have cur := settled.exhausted (lt_min some_buffer some_transfer) (inv.busy clean)
  have exact := exact_run movesAll
  have sent : Sent q s := (clean_run plain small (complete_initial q limit)
    (fun inv inv' clean clean' exact step =>
      sent_step plain inv (inv.holding clean) (inv'.holding clean') exact step)
    (fun _ => sent_initial q limit) h exact clean).2
  refine ⟨cur ▸ inv.handed.takes, fun completes => ?_, fun alone late => ?_⟩
  · have filled : Filled q s := (clean_run plain small (complete_initial q limit)
      (fun inv inv' clean clean' completes step => filled_step plain small inv inv' clean clean' completes step)
      (fun _ j bound => absurd bound (Nat.not_lt_zero j)) h completes clean).2
    exact sent.whole cur (filled.delivered settled cur)
  · have both : (machine (completeSequenceAwaitable q limit) q).Meets
        (fun s e => Landed Exact s ∧ TakesAfterLoop q limit s e) (initial (completeSequenceAwaitable q limit) q) es :=
      fun fs e t initial h => ⟨exact fs e t initial h, late fs e t initial h⟩
    have kept : Filled q s ∧ Sent q s ∧ InOrder q limit s := by
      refine (clean_run (I := fun s => Filled q s ∧ Sent q s ∧ InOrder q limit s) plain small (complete_initial q limit)
        ?_ (fun _ => ⟨fun j bound => absurd bound (Nat.not_lt_zero j), sent_initial q limit, inOrder_initial q limit⟩)
        h both clean).2
      rintro u e v inv inv' clean clean' ⟨exact, late⟩ step ⟨filled, sent, order⟩
      have holding := inv.holding clean
      exact ⟨filled_step plain small inv inv' clean clean' (order.completes alone inv holding exact e) step filled,
        sent_step plain inv holding (inv'.holding clean') exact step sent,
        inOrder_step alone small plain inv holding exact late sent step order⟩
    obtain ⟨filled, sent, order⟩ := kept
    exact stream_eq_sequence sent order.ordered cur (sent.whole cur (filled.delivered settled cur))

/-- Two buffers of four bytes in parts of two. -/
def twoInParts : List Event :=
  [.suspend, .submit 0, .submit 0, .leaveLoop,
    .complete 0 ⟨.completed, 2, []⟩, .callback 0, .proceed 0, .complete 1 ⟨.completed, 2, []⟩, .callback 1, .proceed 0,
    .complete 0 ⟨.completed, 2, []⟩, .callback 0, .proceed 0, .complete 1 ⟨.completed, 2, []⟩, .callback 1, .proceed 0,
    .resume]

theorem submitted_bytes_follow_the_buffers_reused_bulk :
    (∃ s, (machine (completeSequenceAwaitable reusedBulk 4) reusedBulk).run
      (initial (completeSequenceAwaitable reusedBulk 4) reusedBulk) bothAtOnce = some s ∧
      stream s.log = sequenceBytes reusedBulk) ∧
    ∃ s, (machine (completeSequenceAwaitable twoBulk 2) twoBulk).run
      (initial (completeSequenceAwaitable twoBulk 2) twoBulk) twoInParts = some s ∧
      ∀ j, part s.log j = bytesOf twoBulk j :=
  ⟨⟨_, rfl, (submitted_bytes_follow_the_buffers reusedBulk 4 bothAtOnce _ {} 8 reusedBulk_nonIsochronous (by decide)
      (by decide) (by decide) rfl rfl rfl (by decide)).2.2 (by decide) (by decide)⟩,
    _, rfl, (submitted_bytes_follow_the_buffers twoBulk 2 twoInParts _ {} 8 (fun _ _ => by simp [twoBulk]) (by decide)
      (by decide) (by decide) rfl rfl rfl (by decide)).2.1 (by decide)⟩

/-- The two transfers alternate, and so do the halves of their buffers. -/
theorem parts_of_two_buffers_alternate :
    ∃ s, (machine (completeSequenceAwaitable twoBulk 2) twoBulk).run
      (initial (completeSequenceAwaitable twoBulk 2) twoBulk) twoInParts = some s ∧
      s.resumed = some ({}, 8) ∧
      (machine (completeSequenceAwaitable twoBulk 2) twoBulk).Meets MovesAll
        (initial (completeSequenceAwaitable twoBulk 2) twoBulk) twoInParts ∧
      stream s.log = [⟨0, 0⟩, ⟨0, 1⟩, ⟨1, 0⟩, ⟨1, 1⟩, ⟨0, 2⟩, ⟨0, 3⟩, ⟨1, 2⟩, ⟨1, 3⟩] ∧
      stream s.log ≠ sequenceBytes twoBulk :=
  ⟨_, rfl, rfl, by decide, rfl, by decide⟩

end CoUsb.Transfer

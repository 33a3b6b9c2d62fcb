import CoUsb.Lib.Fill
import CoUsb.Transfer.PartialBuffers
import CoUsb.Transfer.StreamOrder

/-!
# The bytes of a partial read

The device stores what it moves at the start of the buffer a transfer holds, a control
transfer's behind its setup packet. `read_some` returns one count for all buffers.
-/

namespace CoUsb.Transfer

variable {q : Request} {s s' : State SequenceState} {e : Event} {es : List Event} {ec : ErrorCode} {log : List Action}
  {j k n : Nat}

/-! ### Stored bytes -/

def controlSetupSize : Nat := 8

/-- Where the data of a transfer begins. -/
def data (tfer : LibusbTransfer) : Pointer := tfer.buffer + if tfer.type = .control then controlSetupSize else 0

def Action.storedBytes : Action → List Pointer
  | .callback _ tfer _ => (List.range tfer.actualLength).map (data tfer + ·)
  | _ => []

/-- The bytes the device stored for the transfers called back. -/
def storedBytes (log : List Action) : List Pointer := (callbacks log).flatMap Action.storedBytes

/-- The bytes stored are the first `n` of the buffer sequence. -/
def FillsPrefix (q : Request) (log : List Action) (n : Nat) : Prop :=
  ∀ p, p ∈ storedBytes log ↔ p ∈ (sequenceBytes q).take n

/-- The capacity of buffer `j`. -/
def capacity (q : Request) (j : Nat) : Nat := q.sizes.getD j 0

/-- No buffer has bytes behind one that has room left, and no bytes lie behind a setup packet. -/
structure ReadInOrder (q : Request) (log : List Action) : Prop where
  order : Fill.InOrder (capacity q) (deliveredTo log)
  control : ∀ t tfer seen, .callback t tfer seen ∈ log → tfer.type = .control → tfer.actualLength = 0

theorem mem_firstBytes {p : Pointer} : p ∈ firstBytes j n ↔ p.buffer = j ∧ p.offset < n := by
  rw [firstBytes, List.mem_map]
  constructor
  · rintro ⟨i, inside, rfl⟩
    exact ⟨rfl, List.mem_range.mp inside⟩
  · rintro ⟨rfl, inside⟩
    exact ⟨p.offset, List.mem_range.mpr inside, rfl⟩

theorem take_firstBytes (j m n : Nat) : (firstBytes j n).take m = firstBytes j (min m n) := by
  rw [firstBytes, ← List.map_take, List.take_range, firstBytes]

theorem length_blocks (size : Nat → Nat) (k : Nat) :
    ((List.range k).flatMap fun j => firstBytes j (size j)).length = Fill.base size k := by
  induction k with
  | zero => rfl
  | succ k ih =>
    rw [List.range_succ, List.flatMap_append, List.length_append, ih, List.flatMap_singleton, Fill.base_succ,
      firstBytes,
      List.length_map, List.length_range]

theorem mem_take_blocks (size : Nat → Nat) (k n : Nat) (p : Pointer) :
    p ∈ ((List.range k).flatMap fun j => firstBytes j (size j)).take n ↔
      p.buffer < k ∧ p.offset < size p.buffer ∧ Fill.base size p.buffer + p.offset < n := by
  induction k with
  | zero => simp
  | succ k ih =>
    rw [List.range_succ, List.flatMap_append, List.flatMap_singleton, List.take_append, List.mem_append, ih,
      length_blocks,
      take_firstBytes, mem_firstBytes, lt_min_iff]
    by_cases last : p.buffer = k
    · rw [last]
      omega
    · omega

theorem mem_take_sequence (q : Request) (n : Nat) (p : Pointer) :
    p ∈ (sequenceBytes q).take n ↔
      p.buffer < q.sizes.length ∧ p.offset < capacity q p.buffer ∧ Fill.base (capacity q) p.buffer + p.offset < n :=
  mem_take_blocks (capacity q) q.sizes.length n p

/-! ### Bytes by buffer -/

theorem deliveredTo_of_once (once : ((callbacks log).map Action.buffer).Nodup) {a : Action}
    (member : a ∈ callbacks log) :
    deliveredTo log a.buffer = a.moved := by
  have single : (callbacks log).count a = 1 := List.count_eq_one_of_mem once.of_map member
  have others : ∀ b, b ≠ a → b ∈ callbacks log → (if b.buffer = a.buffer then b.moved else 0) = 0 :=
    fun b different other => if_neg fun same => different (List.inj_on_of_nodup_map once other member same)
  rw [deliveredTo, List.sum_map_eq_nsmul_single a _ others, single, one_nsmul, if_pos rfl]

theorem exists_of_delivered (some : deliveredTo log j ≠ 0) : ∃ a ∈ callbacks log, a.buffer = j := by
  by_contra none
  refine some (List.sum_eq_zero fun m member => ?_)
  obtain ⟨a, called, rfl⟩ := List.mem_map.mp member
  exact if_neg fun here => none ⟨a, called, here⟩

theorem movedBytes_eq_base (bound : ∀ a ∈ callbacks log, a.buffer < k) :
    movedBytes log = Fill.base (deliveredTo log) k := by
  unfold movedBytes Fill.base deliveredTo
  generalize callbacks log = calls at bound
  induction calls with
  | nil => simp
  | cons a l ih =>
    have own : ∑ j ∈ Finset.range k, (if a.buffer = j then a.moved else 0) = a.moved := by
      rw [Finset.sum_ite_eq, if_pos (Finset.mem_range.mpr (bound a List.mem_cons_self))]
    simp only [List.map_cons, List.sum_cons, Finset.sum_add_distrib, own,
      ih fun b member => bound b (List.mem_cons_of_mem a member)]

/-! ### Buffers from their first byte on -/

/-- Every transfer points at the first byte of its buffer. -/
structure FromStart (q : Request) (s : State SequenceState) : Prop where
  given : s.started = true → ∀ t, t < q.used → (s.tfers t).buffer.offset = 0
  called : ∀ a ∈ callbacks s.log, ∃ t tfer seen, a = .callback t tfer seen ∧ tfer.buffer.offset = 0

theorem fromStart_step (counted : Counted q s) (start : FromStart q s) (step : Step (sequenceAwaitable q) q s e s') :
    FromStart q s' := by
  refine ⟨given_step (R := fun tfer => tfer.buffer.offset = 0) (fun _ _ => rfl) (fun _ _ offset => offset)
    start.given step, fun a member => ?_⟩
  rw [callbacks_step step, List.mem_append] at member
  rcases member with old | new
  · exact start.called a old
  · cases step with
    | drain t _ landed | enter t _ landed =>
      obtain rfl := List.mem_singleton.mp new
      have launched := counted.flying t (by simp [landed])
      exact ⟨_, _, _, rfl, start.given (counted.started_of_submitted launched) t (counted.lt_used launched)⟩
    | _ => cases new

theorem fromStart_run (h : (machine (sequenceAwaitable q) q).run (initial (sequenceAwaitable q) q) es = some s) :
    FromStart q s := by
  have kept : Counted q s ∧ FromStart q s := by
    refine Machine.run_invariant (I := fun s => Counted q s ∧ FromStart q s) ?_
      ⟨counted_initial _ q, by simp [initial, State.started], by simp [initial, callbacks]⟩ h
    rintro s e s' ⟨counted, start⟩ step
    exact ⟨counted_step counted (step_cases step), fromStart_step counted start (step_cases step)⟩
  exact kept.2

/-! ### Which bytes are stored -/

theorem mem_callback {t : Nat} {tfer : LibusbTransfer} {seen : ErrorCode} {p : Pointer} :
    p ∈ (Action.callback t tfer seen).storedBytes ↔ p.buffer = tfer.buffer.buffer ∧
      (data tfer).offset ≤ p.offset ∧ p.offset < (data tfer).offset + tfer.actualLength := by
  rw [Action.storedBytes, List.mem_map]
  constructor
  · rintro ⟨i, inside, rfl⟩
    have inside := List.mem_range.mp inside
    exact ⟨rfl, Nat.le_add_right _ _, Nat.add_lt_add_left inside _⟩
  · rintro ⟨here, behind, inside⟩
    refine ⟨p.offset - (data tfer).offset, List.mem_range.mpr (by omega), ?_⟩
    rcases p with ⟨b, o⟩
    obtain rfl : b = tfer.buffer.buffer := here
    exact congrArg (Pointer.mk _) (Nat.add_sub_cancel' behind)

theorem data_offset {tfer : LibusbTransfer} (first : tfer.buffer.offset = 0) :
    (data tfer).offset = if tfer.type = .control then controlSetupSize else 0 := by
  rw [data, Pointer.add_offset, first, Nat.zero_add]

/-- The callbacks of an operation without an error. -/
structure CalledOnce (q : Request) (log : List Action) : Prop where
  once : ((callbacks log).map Action.buffer).Nodup
  bound : ∀ a ∈ callbacks log, a.buffer < q.sizes.length
  room : ∀ a ∈ callbacks log, a.moved ≤ capacity q a.buffer
  first : ∀ a ∈ callbacks log, ∃ t tfer seen, a = .callback t tfer seen ∧ tfer.buffer.offset = 0

theorem CalledOnce.within (calls : CalledOnce q log) (j : Nat) : deliveredTo log j ≤ capacity q j := by
  rcases Nat.eq_zero_or_pos (deliveredTo log j) with none | some
  · rw [none]
    exact Nat.zero_le _
  · obtain ⟨a, member, rfl⟩ := exists_of_delivered some.ne'
    rw [deliveredTo_of_once calls.once member]
    exact calls.room a member

theorem CalledOnce.ahead (calls : CalledOnce q log) (j : Nat) (later : q.sizes.length ≤ j) : deliveredTo log j = 0 := by
  by_contra some
  obtain ⟨a, member, rfl⟩ := exists_of_delivered some
  exact absurd (calls.bound a member) (Nat.not_lt.mpr later)

theorem CalledOnce.mem_storedBytes (calls : CalledOnce q log)
    (control : ∀ t tfer seen, .callback t tfer seen ∈ log → tfer.type = .control → tfer.actualLength = 0)
    (p : Pointer) :
    p ∈ storedBytes log ↔ p.offset < deliveredTo log p.buffer := by
  have own : ∀ a ∈ callbacks log, p ∈ a.storedBytes ↔ p.buffer = a.buffer ∧ p.offset < a.moved := by
    intro a member
    obtain ⟨t, tfer, seen, rfl, first⟩ := calls.first a member
    rw [mem_callback, data_offset first]
    apply and_congr_right
    intro _
    show _ ↔ p.offset < tfer.actualLength
    split
    case isTrue setup =>
      have silent := control t tfer seen (List.mem_of_mem_filter member) setup
      omega
    case isFalse => omega
  rw [storedBytes, List.mem_flatMap]
  constructor
  · rintro ⟨a, member, stored⟩
    obtain ⟨here, inside⟩ := (own a member).mp stored
    rwa [here, deliveredTo_of_once calls.once member]
  · intro inside
    obtain ⟨a, member, here⟩ := exists_of_delivered (Nat.ne_zero_of_lt inside)
    rw [← here, deliveredTo_of_once calls.once member] at inside
    exact ⟨a, member, (own a member).mpr ⟨here.symm, inside⟩⟩

/-- Bytes behind a setup packet are no prefix. -/
theorem CalledOnce.control (calls : CalledOnce q log) (fills : FillsPrefix q log n) (t : Nat) (tfer : LibusbTransfer)
    (seen : ErrorCode) (called : .callback t tfer seen ∈ log) (setup : tfer.type = .control) :
    tfer.actualLength = 0 := by
  by_contra moved
  have member : .callback t tfer seen ∈ callbacks log := List.mem_filter.mpr ⟨called, rfl⟩
  have offset : ∀ {t tfer seen}, .callback t tfer seen ∈ callbacks log → tfer.type = .control →
      (data tfer).offset = controlSetupSize := by
    intro t tfer seen member setup
    obtain ⟨_, _, _, same, first⟩ := calls.first _ member
    obtain ⟨-, rfl, -⟩ := Action.callback.inj same
    rw [data_offset first, if_pos setup]
  have stored : data tfer ∈ storedBytes log :=
    List.mem_flatMap.mpr ⟨_, member, mem_callback.mpr ⟨rfl, le_rfl, by omega⟩⟩
  have inside := (mem_take_sequence q n _).mp ((fills _).mp stored)
  have start : (⟨tfer.buffer.buffer, 0⟩ : Pointer) ∈ storedBytes log := by
    refine (fills _).mpr ((mem_take_sequence q n _).mpr ⟨inside.1, (Nat.zero_le _).trans_lt inside.2.1, ?_⟩)
    exact (Nat.add_le_add_left (Nat.zero_le _) _).trans_lt inside.2.2
  obtain ⟨a, other, first⟩ := List.mem_flatMap.mp start
  obtain ⟨t', tfer', seen', rfl, _⟩ := calls.first a other
  obtain ⟨here, behind, _⟩ := mem_callback.mp first
  have same := List.inj_on_of_nodup_map calls.once member other here
  obtain ⟨-, rfl, -⟩ := Action.callback.inj same
  rw [offset member setup] at behind
  exact absurd behind (Nat.not_le.mpr (Nat.succ_pos 7))

theorem CalledOnce.fillsPrefix_iff (calls : CalledOnce q log) (enough : n ≤ movedBytes log) :
    FillsPrefix q log n ↔ ReadInOrder q log ∧ movedBytes log ≤ n := by
  have total := movedBytes_eq_base calls.bound
  have filled := Fill.filled_iff calls.within calls.ahead (enough.trans_eq total)
  rw [← total] at filled
  have places : (∀ t tfer seen, .callback t tfer seen ∈ log → tfer.type = .control → tfer.actualLength = 0) →
      (FillsPrefix q log n ↔ ∀ j, j < q.sizes.length → ∀ place, place < deliveredTo log j ↔
        place < capacity q j ∧ Fill.base (capacity q) j + place < n) := by
    intro control
    constructor
    · intro fills j bound place
      rw [← calls.mem_storedBytes control ⟨j, place⟩, fills, mem_take_sequence]
      exact and_iff_right bound
    · intro prefixed p
      rw [calls.mem_storedBytes control, mem_take_sequence]
      by_cases bound : p.buffer < q.sizes.length
      · rw [prefixed p.buffer bound, and_iff_right bound]
      · simp [calls.ahead p.buffer (Nat.not_lt.mp bound), bound]
  constructor
  · intro fills
    have control := calls.control fills
    obtain ⟨order, all⟩ := filled.mp ((places control).mp fills)
    exact ⟨⟨order, control⟩, all⟩
  · rintro ⟨⟨order, control⟩, all⟩
    exact (places control).mpr (filled.mpr ⟨order, all⟩)

theorem resumed_calledOnce (plain : q.NonIsochronous)
    (h : (machine (sequenceAwaitable q) q).run (initial (sequenceAwaitable q) q) es = some s)
    (resumed : s.resumed = some (ec, n)) (fine : ec.isError = false) :
    CalledOnce q s.log ∧ n = sizeT (movedBytes s.log) := by
  obtain ⟨called, total⟩ := resumed_covered plain h resumed fine
  have inv := partial_run plain h
  refine ⟨⟨called.nodup_iff.mpr List.nodup_range, fun a member => ?_, inv.bounded.bytes,
    (fromStart_run h).called⟩, total⟩
  have given := List.mem_range.mp (called.subset (List.mem_map_of_mem member))
  exact given.trans_le inv.handed.cur_le

/-- A partial read stores its bytes in the first `n` places of the buffer sequence exactly if
no callback reported bytes for a buffer behind one that was not filled, none did so for a
control transfer, and the count does not wrap around. -/
theorem read_fills_prefix_iff (q : Request) (es : List Event) (s : State SequenceState) (ec : ErrorCode) (n : Nat)
    (plain : q.NonIsochronous)
    (h : (machine (sequenceAwaitable q) q).run (initial (sequenceAwaitable q) q) es = some s)
    (resumed : s.resumed = some (ec, n)) (fine : ec.isError = false) :
    FillsPrefix q s.log n ↔ ReadInOrder q s.log ∧ movedBytes s.log < 2 ^ 64 := by
  obtain ⟨calls, rfl⟩ := resumed_calledOnce plain h resumed fine
  rw [calls.fillsPrefix_iff (n := sizeT (movedBytes s.log)) (Word.wrap_le 64 _)]
  refine and_congr_right fun _ => ⟨fun all => ?_, fun small => (Word.wrap_of_lt small).ge⟩
  exact all.trans_lt (Word.wrap_lt 64 _)

theorem read_fills_prefix_iff_two_bulk :
    ∃ s, (machine (sequenceAwaitable twoBulk) twoBulk).run (initial (sequenceAwaitable twoBulk) twoBulk)
      bothCallbacks = some s ∧ FillsPrefix twoBulk s.log 7 := by
  have h : ∃ s, (machine (sequenceAwaitable twoBulk) twoBulk).run (initial (sequenceAwaitable twoBulk) twoBulk)
      bothCallbacks = some s ∧ s.resumed = some ({}, 7) ∧ movedBytes s.log = 7 ∧
      (∀ j, deliveredTo s.log j = if j = 0 then 4 else if j = 1 then 3 else 0) ∧
      ∀ a ∈ s.log, (match a with | .callback _ tfer _ => tfer.type == .bulk | _ => true) = true := by
    refine ⟨_, rfl, rfl, by decide, ?_, by decide⟩
    rintro (_ | _ | j) <;> rfl
  obtain ⟨s, run, resumed, moved, delivered, bulk⟩ := h
  refine ⟨s, run, (read_fills_prefix_iff twoBulk bothCallbacks s {} 7 twoBulk_nonIsochronous run resumed rfl).mpr
    ⟨⟨?_, fun t tfer seen member control => ?_⟩, by simp [moved]⟩⟩
  · rintro (_ | _ | i) (_ | _ | j) before room <;> simp_all [capacity, twoBulk]
  · simpa [control] using bulk _ member

/-- The first transfer moves two of its four bytes, the second all four. -/
def shortFirst : List Event :=
  [.suspend, .submit 0, .submit 0, .leaveLoop, .complete 0 ⟨.completed, 2, []⟩, .callback 0, .proceed 0,
    .complete 1 ⟨.completed, 4, []⟩, .callback 1, .proceed 0, .resume]

/-- The last two of the six bytes lie behind the first six places. -/
theorem short_read_leaves_gap :
    ∃ s, (machine (sequenceAwaitable twoBulk) twoBulk).run (initial (sequenceAwaitable twoBulk) twoBulk) shortFirst =
      some s ∧ s.resumed = some ({}, 6) ∧ ¬ FillsPrefix twoBulk s.log 6 :=
  ⟨_, rfl, rfl, fun fills => absurd ((fills ⟨1, 3⟩).mp (by decide)) (by decide)⟩

end CoUsb.Transfer

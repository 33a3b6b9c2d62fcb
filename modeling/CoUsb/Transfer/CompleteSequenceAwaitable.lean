import CoUsb.Transfer.Operation

/-!
# Complete I/O: `complete_sequence_awaitable`
-/

namespace CoUsb.Transfer

structure TransferProgress where
  ptr : Pointer := ⟨0, 0⟩
  expected : Nat := 0
  total : Nat := 0
  deriving DecidableEq, Repr

/-- `await_state_t::states`, a default entry standing for a key not inserted yet, and
`buf_current`. -/
structure CompleteState where
  states : Nat → TransferProgress := fun _ => {}
  bufCurrent : Nat := 0

namespace CompleteSequenceAwaitable

def subtotal (tfer : LibusbTransfer) : Nat :=
  if tfer.type = .isochronous then
    tfer.isoPackets.foldl (fun n packet => sizeT (n + packet.actualLength)) 0
  else tfer.actualLength

/-- The second loop over the packets, which leaves at the first packet of a transfer that
has not completed. -/
def packetCheck (status : TransferStatus) : List IsoPacket → Option ErrorCode
  | [] => none
  | packet :: packets =>
    if status ≠ .completed then some (makeTransferStatus packet.status.code)
    else packetCheck status packets

def failure (tfer : LibusbTransfer) : Option ErrorCode :=
  if tfer.type = .isochronous then packetCheck tfer.status tfer.isoPackets else none

def fill (q : Request) (limit : Nat) (p : CompleteState) (t : Nat) (tfer : LibusbTransfer) :
    CompleteState × LibusbTransfer :=
  let buf := q.buffer p.bufCurrent
  let prg := { p.states t with ptr := buf.data, expected := buf.size }
  ({ states := Function.update p.states t prg, bufCurrent := p.bufCurrent + 1 },
    { tfer with buffer := buf.data, length := toInt (min buf.size limit) })

def process (q : Request) (limit : Nat) (p : CompleteState) (t : Nat) (tfer : LibusbTransfer) :
    CompleteState × Next :=
  let prg := { p.states t with total := sizeT ((p.states t).total + subtotal tfer) }
  let counted := { p with states := Function.update p.states t prg }
  match failure tfer with
  | some ec => (counted, .fail ec)
  | none =>
    if tfer.status ≠ .completed then (counted, .fail (makeTransferStatus tfer.status.code))
    else if prg.total ≥ prg.expected then
      if p.bufCurrent = q.sizes.length then (counted, .resume)
      else
        let buf := q.buffer p.bufCurrent
        let prg := { prg with ptr := buf.data, expected := buf.size }
        ({ states := Function.update p.states t prg, bufCurrent := p.bufCurrent + 1 },
          .submit true { tfer with buffer := prg.ptr, length := toInt (min prg.expected limit) })
    else
      let prg := { prg with ptr := prg.ptr + subtotal tfer }
      ({ p with states := Function.update p.states t prg },
        .submit false
          { tfer with
            buffer := prg.ptr
            length := toInt (min (Word.sub 64 prg.expected prg.total) limit) })

/-- The sum `await_resume` takes over the map. -/
def total (q : Request) (p : CompleteState) : Nat :=
  (List.range q.used).foldl (fun n t => sizeT (n + (p.states t).total)) 0

/-- The progress of a transfer with the bytes of its callback. -/
def counted (p : CompleteState) (t : Nat) (tfer : LibusbTransfer) : TransferProgress :=
  { p.states t with total := sizeT ((p.states t).total + subtotal tfer) }

/-- The exits of `transfer_callback`. -/
inductive Exit (q : Request) (limit : Nat) (p : CompleteState) (t : Nat) (tfer : LibusbTransfer) :
    CompleteState × Next → Prop where
  | failed (ec : ErrorCode) (reason : failure tfer = some ec ∨ failure tfer = none ∧
      tfer.status ≠ .completed ∧ ec = makeTransferStatus tfer.status.code) :
      Exit q limit p t tfer (⟨Function.update p.states t (counted p t tfer), p.bufCurrent⟩, .fail ec)
  | finished (completed : tfer.status = .completed) (done : (p.states t).expected ≤ (counted p t tfer).total)
      (last : p.bufCurrent = q.sizes.length) :
      Exit q limit p t tfer (⟨Function.update p.states t (counted p t tfer), p.bufCurrent⟩, .resume)
  | next (completed : tfer.status = .completed) (done : (p.states t).expected ≤ (counted p t tfer).total)
      (left : p.bufCurrent ≠ q.sizes.length) :
      Exit q limit p t tfer
        (⟨Function.update p.states t
            ⟨(q.buffer p.bufCurrent).data, (q.buffer p.bufCurrent).size, (counted p t tfer).total⟩, p.bufCurrent + 1⟩,
          .submit true
            { tfer with
              buffer := (q.buffer p.bufCurrent).data
              length := toInt (min (q.buffer p.bufCurrent).size limit) })
  | again (completed : tfer.status = .completed) (short : (counted p t tfer).total < (p.states t).expected) :
      Exit q limit p t tfer
        (⟨Function.update p.states t
            { counted p t tfer with ptr := (p.states t).ptr + subtotal tfer }, p.bufCurrent⟩,
          .submit false
            { tfer with
              buffer := (p.states t).ptr + subtotal tfer
              length := toInt (min (Word.sub 64 (p.states t).expected (counted p t tfer).total) limit) })

theorem process_exit (q : Request) (limit : Nat) (p : CompleteState) (t : Nat) (tfer : LibusbTransfer) :
    Exit q limit p t tfer (process q limit p t tfer) := by
  unfold process
  dsimp only
  split
  case h_1 ec found => exact .failed ec (Or.inl found)
  case h_2 found =>
    split_ifs with failed done last
    · exact .failed _ (Or.inr ⟨found, failed, rfl⟩)
    · exact .finished (not_not.mp failed) done last
    · exact .next (not_not.mp failed) done last
    · exact .again (not_not.mp failed) (not_le.mp done)

theorem subtotal_ordinary {tfer : LibusbTransfer} (plain : tfer.type ≠ .isochronous) :
    subtotal tfer = tfer.actualLength := if_neg plain

theorem failure_ordinary {tfer : LibusbTransfer} (plain : tfer.type ≠ .isochronous) : failure tfer = none :=
  if_neg plain

end CompleteSequenceAwaitable

def completeSequenceAwaitable (q : Request) (limit : Nat) : Pump CompleteState where
  start := {}
  ready p := p.bufCurrent ≥ q.sizes.length
  fill := CompleteSequenceAwaitable.fill q limit
  process := CompleteSequenceAwaitable.process q limit
  total := CompleteSequenceAwaitable.total q

@[simp] theorem completeSequenceAwaitable_fill (q : Request) (limit : Nat) :
    (completeSequenceAwaitable q limit).fill = CompleteSequenceAwaitable.fill q limit := rfl

@[simp] theorem completeSequenceAwaitable_process (q : Request) (limit : Nat) :
    (completeSequenceAwaitable q limit).process = CompleteSequenceAwaitable.process q limit := rfl

theorem completeSequenceAwaitable_exit {q : Request} {limit : Nat} {p : CompleteState} {t : Nat}
    {tfer : LibusbTransfer} {result : CompleteState × Next}
    (exit : (completeSequenceAwaitable q limit).process p t tfer = result) :
    CompleteSequenceAwaitable.Exit q limit p t tfer result :=
  exit ▸ CompleteSequenceAwaitable.process_exit q limit p t tfer

end CoUsb.Transfer

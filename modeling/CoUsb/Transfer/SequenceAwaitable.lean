import CoUsb.Transfer.Operation

/-!
# Partial I/O: `sequence_awaitable`
-/

namespace CoUsb.Transfer

/-- `await_state_t::total` and `buf_current`. -/
structure SequenceState where
  total : Nat := 0
  bufCurrent : Nat := 0
  deriving DecidableEq, Repr

namespace SequenceAwaitable

/-- The loop over the packets of an isochronous transfer; it returns at the first packet
of a transfer that has not completed. -/
def packetLoop (status : TransferStatus) : List IsoPacket → Nat → Nat × Option ErrorCode
  | [], total => (total, none)
  | packet :: packets, total =>
    let total := sizeT (total + packet.actualLength)
    if status ≠ .completed then (total, some (makeTransferStatus packet.status.code))
    else packetLoop status packets total

/-- The addition to `total`, with the error of the packet loop. -/
def count (p : SequenceState) (tfer : LibusbTransfer) : Nat × Option ErrorCode :=
  if tfer.type = .isochronous then packetLoop tfer.status tfer.isoPackets p.total
  else (sizeT (p.total + tfer.actualLength), none)

def fill (q : Request) (p : SequenceState) (_ : Nat) (tfer : LibusbTransfer) : SequenceState × LibusbTransfer :=
  let buf := q.buffer p.bufCurrent
  ({ p with bufCurrent := p.bufCurrent + 1 }, { tfer with buffer := buf.data, length := toInt buf.size })

def process (q : Request) (p : SequenceState) (_ : Nat) (tfer : LibusbTransfer) : SequenceState × Next :=
  let counted := count p tfer
  let p := { p with total := counted.1 }
  match counted.2 with
  | some ec => (p, .fail ec)
  | none =>
    if tfer.status ≠ .completed then (p, .fail (makeTransferStatus tfer.status.code))
    else if p.bufCurrent = q.sizes.length then (p, .resume)
    else
      let buf := q.buffer p.bufCurrent
      ({ p with bufCurrent := p.bufCurrent + 1 },
        .submit true { tfer with buffer := buf.data, length := toInt buf.size })

/-- The exits of `transfer_callback`. -/
inductive Exit (q : Request) (p : SequenceState) (tfer : LibusbTransfer) : SequenceState × Next → Prop where
  | failed (ec : ErrorCode) (reason : (count p tfer).2 = some ec ∨ (count p tfer).2 = none ∧
      tfer.status ≠ .completed ∧ ec = makeTransferStatus tfer.status.code) :
      Exit q p tfer (⟨(count p tfer).1, p.bufCurrent⟩, .fail ec)
  | finished (completed : tfer.status = .completed) (last : p.bufCurrent = q.sizes.length) :
      Exit q p tfer (⟨(count p tfer).1, p.bufCurrent⟩, .resume)
  | next (completed : tfer.status = .completed) (left : p.bufCurrent ≠ q.sizes.length) :
      Exit q p tfer (⟨(count p tfer).1, p.bufCurrent + 1⟩,
        .submit true
          { tfer with buffer := (q.buffer p.bufCurrent).data, length := toInt (q.buffer p.bufCurrent).size })

theorem process_exit (q : Request) (p : SequenceState) (t : Nat) (tfer : LibusbTransfer) :
    Exit q p tfer (process q p t tfer) := by
  unfold process
  dsimp only
  split
  case h_1 ec found => exact .failed ec (Or.inl found)
  case h_2 found =>
    split_ifs with failed last
    · exact .failed _ (Or.inr ⟨found, failed, rfl⟩)
    · exact .finished (not_not.mp failed) last
    · exact .next (not_not.mp failed) last

theorem count_ordinary {tfer : LibusbTransfer} (p : SequenceState) (plain : tfer.type ≠ .isochronous) :
    count p tfer = (sizeT (p.total + tfer.actualLength), none) := if_neg plain

end SequenceAwaitable

def sequenceAwaitable (q : Request) : Pump SequenceState where
  start := {}
  ready p := p.bufCurrent ≥ q.sizes.length
  fill := SequenceAwaitable.fill q
  process := SequenceAwaitable.process q
  total p := p.total

@[simp] theorem sequenceAwaitable_fill (q : Request) : (sequenceAwaitable q).fill = SequenceAwaitable.fill q := rfl

@[simp] theorem sequenceAwaitable_process (q : Request) :
    (sequenceAwaitable q).process = SequenceAwaitable.process q := rfl

theorem sequenceAwaitable_exit {q : Request} {p : SequenceState} {t : Nat} {tfer : LibusbTransfer}
    {result : SequenceState × Next} (exit : (sequenceAwaitable q).process p t tfer = result) :
    SequenceAwaitable.Exit q p tfer result :=
  exit ▸ SequenceAwaitable.process_exit q p t tfer

end CoUsb.Transfer

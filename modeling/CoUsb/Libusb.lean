import CoUsb.Lib.Word

/-!
# The part of libusb the transfers use

A `libusb_transfer` with the fields the awaitables read and write, and the C integer
conversions they go through.
-/

namespace CoUsb

/-- `size_t` values are naturals below `2 ^ 64`. -/
def sizeT (n : Nat) : Nat := Word.wrap 64 n

/-- Implicit conversion of a `size_t` to `int`. -/
def toInt (n : Nat) : Int := Word.narrow 32 n

theorem toInt_eq_iff (n : Nat) : toInt n = n ↔ n < 2 ^ 31 := Word.narrow_eq_iff.trans (by omega)

inductive TransferStatus where
  | completed | error | timedOut | cancelled | stall | noDevice | overflow
  deriving DecidableEq, Repr

def TransferStatus.code : TransferStatus → Int
  | .completed => 0
  | .error => 1
  | .timedOut => 2
  | .cancelled => 3
  | .stall => 4
  | .noDevice => 5
  | .overflow => 6

theorem TransferStatus.code_eq_zero {s : TransferStatus} : s.code = 0 ↔ s = .completed := by
  cases s <;> simp [code]

inductive TransferType where
  | control | isochronous | bulk | interrupt | bulkStream
  deriving DecidableEq, Repr

structure IsoPacket where
  actualLength : Nat
  status : TransferStatus
  deriving DecidableEq, Repr

/-- A pointer into one of the caller's buffers. -/
structure Pointer where
  buffer : Nat
  offset : Nat
  deriving DecidableEq, Repr

instance : HAdd Pointer Nat Pointer := ⟨fun p n => { p with offset := p.offset + n }⟩

@[simp] theorem Pointer.add_buffer (p : Pointer) (n : Nat) : (p + n).buffer = p.buffer := rfl
@[simp] theorem Pointer.add_offset (p : Pointer) (n : Nat) : (p + n).offset = p.offset + n := rfl

/-- `libusb_transfer`; the list of packets has `num_iso_packets` entries. -/
structure LibusbTransfer where
  type : TransferType
  status : TransferStatus := .completed
  length : Int := 0
  actualLength : Nat := 0
  buffer : Pointer := ⟨0, 0⟩
  isoPackets : List IsoPacket := []
  deriving DecidableEq, Repr

/-- What the device reports for a transfer it has finished. -/
structure Completion where
  status : TransferStatus
  actualLength : Nat
  isoPackets : List IsoPacket := []
  deriving DecidableEq, Repr

/-- libusb reports at most the submitted length and one result for each packet. -/
def Completion.fits (c : Completion) (tfer : LibusbTransfer) : Bool :=
  c.actualLength ≤ tfer.length.toNat && c.isoPackets.length == tfer.isoPackets.length

def LibusbTransfer.finish (tfer : LibusbTransfer) (c : Completion) : LibusbTransfer :=
  { tfer with status := c.status, actualLength := c.actualLength, isoPackets := c.isoPackets }

end CoUsb

import CoUsb.Libusb

/-!
# Views of transfer sequences

Iterators are positions in the underlying sequence, whose transfers are distinct.
-/

namespace CoUsb.Transfer

structure SequenceView where
  mBegin : Nat
  mEnd : Nat

namespace SequenceView

/-- `sequence_view(seq)` for a sequence of `n` transfers. -/
def ofSequence (n : Nat) : SequenceView := ⟨0, n⟩

def size (v : SequenceView) : Nat := v.mEnd - v.mBegin

def begin (v : SequenceView) : Nat := v.mBegin

/-- `end()` returns `m_begin`. -/
def «end» (v : SequenceView) : Nat := v.mBegin

@[simp] theorem size_ofSequence (n : Nat) : (ofSequence n).size = n := Nat.sub_zero n
@[simp] theorem begin_ofSequence (n : Nat) : (ofSequence n).begin = 0 := rfl
@[simp] theorem end_ofSequence (n : Nat) : (ofSequence n).end = 0 := rfl

end SequenceView

end CoUsb.Transfer

import CoUsb.Transfer.SequenceView

/-!
# Operations on transfer sequences

Transfer resources are named by the `libusb_transfer *` they provide. Iterators are positions in the resources they
point into, which a view shares with the sequence it was built from.
-/

namespace CoUsb.Transfer

variable {τ α : Type}

/-- What can go wrong in an operation; a loop that runs past the last resource is undefined. -/
inductive Fault where
  | pastTheEnd
  | assertion (text : String)
  deriving DecidableEq, Repr

/-! ### Sequences -/

inductive ResourceSequence (τ : Type) where
  | resource (tfer : τ)
  | range (tfers : List τ)
  deriving DecidableEq, Repr

def ResourceSequence.transfers : ResourceSequence τ → List τ
  | .resource tfer => [tfer]
  | .range tfers => tfers

/-- A view with the resources its iterators point into. -/
structure View (τ : Type) where
  resources : List τ
  positions : SequenceView

inductive TransferSequence (τ : Type) where
  | of (s : ResourceSequence τ)
  | view (v : View τ)

namespace TransferSequence

def resources : TransferSequence τ → List τ
  | .of s => s.transfers
  | .view v => v.resources

/-- The address of a single resource, `std::ranges::begin` of the others. -/
def transferBegin : TransferSequence τ → Nat
  | .of _ => 0
  | .view v => v.positions.begin

def transferEnd : TransferSequence τ → Nat
  | .of (.resource _) => 1
  | .of (.range tfers) => tfers.length
  | .view v => v.positions.end

end TransferSequence

/-- `sequence_view(seq)`; a view constructed from a view of the same type is a copy. -/
def View.ofSequence (s : TransferSequence τ) : View τ := ⟨s.resources, ⟨s.transferBegin, s.transferEnd⟩⟩

def View.size (v : View τ) : Nat := v.positions.size

/-- The views built from a sequence, and from its views. -/
inductive ViewOf (s : ResourceSequence τ) : View τ → Prop where
  | first : ViewOf s (.ofSequence (.of s))
  | again {v : View τ} (built : ViewOf s v) : ViewOf s (.ofSequence (.view v))

/-! ### The loop -/

/-- `for (; it != end; it++)` with the resources from `it` on. -/
def loop (body : τ → α) («end» : Nat) (it : Nat) : List τ → Except Fault (List α)
  | [] => if it = «end» then .ok [] else .error .pastTheEnd
  | tfer :: rest =>
    if it = «end» then .ok []
    else do
      let later ← loop body «end» (it + 1) rest
      .ok (body tfer :: later)

def forEach (s : TransferSequence τ) (body : τ → α) : Except Fault (List α) :=
  loop body s.transferEnd s.transferBegin (s.resources.drop s.transferBegin)

/-- The transfers an iteration from `begin()` to `end()` visits. -/
def visited (s : TransferSequence τ) : Except Fault (List τ) := forEach s id

/-! ### The operations -/

/-- An endpoint of unknown direction does not give out its address and cannot be passed to the operations. -/
inductive EndpointDirection where
  | out
  | «in»
  deriving DecidableEq, Repr

structure Endpoint (direction : EndpointDirection) where
  mDevh : Nat
  mEp : UInt8
  deriving DecidableEq, Repr

namespace Endpoint

variable {direction : EndpointDirection}

def addr (ep : Endpoint direction) : UInt8 := ep.mEp

def devh (ep : Endpoint direction) : Nat := ep.mDevh

end Endpoint

/-- The calls into libusb; buffers, their lengths, callbacks and user data are null in each of them. -/
inductive LibusbCall (τ : Type) where
  | cancelTransfer (tfer : τ)
  | fillControlTransfer (tfer : τ) (devh : Nat) (timeout : Nat)
  | fillBulkTransfer (tfer : τ) (devh : Nat) (endpoint : UInt8) (timeout : Nat)
  | fillInterruptTransfer (tfer : τ) (devh : Nat) (endpoint : UInt8) (timeout : Nat)
  | fillIsoTransfer (tfer : τ) (devh : Nat) (endpoint : UInt8) (numIsoPackets : Int) (timeout : Nat)
  | fillBulkStreamTransfer (tfer : τ) (devh : Nat) (endpoint : UInt8) (streamId : UInt32) (timeout : Nat)
  deriving DecidableEq, Repr

/-- Implicit conversion of `std::chrono::milliseconds::count()` to `unsigned int`. -/
def toUnsigned (n : Int) : Nat := (n % 2 ^ 32).toNat

/-- `COUSB_ASSERT`, in a build that checks assertions or in one that does not. -/
def cousbAssert (checked : Bool) (condition : Bool) (text : String) : Except Fault Unit :=
  if checked && !condition then .error (.assertion text) else .ok ()

def cancelTransfer (s : TransferSequence τ) : Except Fault (List (LibusbCall τ)) := forEach s .cancelTransfer

section

variable {direction : EndpointDirection}

def prefillControl (checked : Bool) (s : TransferSequence τ) (ep : Endpoint direction) (timeoutMs : Int) :
    Except Fault (List (LibusbCall τ)) := do
  cousbAssert checked (ep.addr == 0x00 && direction == .out)
    "OUT control transfers must have an endpoint address of 0x00"
  cousbAssert checked (ep.addr == 0x80 && direction == .in)
    "IN control transfers must have an endpoint address of 0x80"
  forEach s fun tfer => .fillControlTransfer tfer ep.devh (toUnsigned timeoutMs)

def prefillBulk (s : TransferSequence τ) (ep : Endpoint direction) (timeoutMs : Int) :
    Except Fault (List (LibusbCall τ)) :=
  forEach s fun tfer => .fillBulkTransfer tfer ep.devh ep.addr (toUnsigned timeoutMs)

def prefillInterrupt (s : TransferSequence τ) (ep : Endpoint direction) (timeoutMs : Int) :
    Except Fault (List (LibusbCall τ)) :=
  forEach s fun tfer => .fillInterruptTransfer tfer ep.devh ep.addr (toUnsigned timeoutMs)

def prefillIsochronous (s : TransferSequence τ) (ep : Endpoint direction) (isoPackets : Int) (timeoutMs : Int) :
    Except Fault (List (LibusbCall τ)) :=
  forEach s fun tfer => .fillIsoTransfer tfer ep.devh ep.addr isoPackets (toUnsigned timeoutMs)

def prefillBulkStream (s : TransferSequence τ) (ep : Endpoint direction) (streamId : UInt32) (timeoutMs : Int) :
    Except Fault (List (LibusbCall τ)) :=
  forEach s fun tfer => .fillBulkStreamTransfer tfer ep.devh ep.addr streamId (toUnsigned timeoutMs)

end

/-! ### The law -/

structure SameOperations (checked : Bool) (s t : TransferSequence τ) : Prop where
  cancel : cancelTransfer s = cancelTransfer t
  control : ∀ {direction} (ep : Endpoint direction) timeoutMs,
    prefillControl checked s ep timeoutMs = prefillControl checked t ep timeoutMs
  bulk : ∀ {direction} (ep : Endpoint direction) timeoutMs, prefillBulk s ep timeoutMs = prefillBulk t ep timeoutMs
  interrupt : ∀ {direction} (ep : Endpoint direction) timeoutMs,
    prefillInterrupt s ep timeoutMs = prefillInterrupt t ep timeoutMs
  isochronous : ∀ {direction} (ep : Endpoint direction) isoPackets timeoutMs,
    prefillIsochronous s ep isoPackets timeoutMs = prefillIsochronous t ep isoPackets timeoutMs
  bulkStream : ∀ {direction} (ep : Endpoint direction) streamId timeoutMs,
    prefillBulkStream s ep streamId timeoutMs = prefillBulkStream t ep streamId timeoutMs

structure Represents (checked : Bool) (s : ResourceSequence τ) (v : View τ) : Prop where
  visits : visited (.view v) = .ok s.transfers
  size : v.size = s.transfers.length
  operations : SameOperations checked (.view v) (.of s)
  visitsAgain : visited (.view (.ofSequence (.view v))) = visited (.view v)
  sizeAgain : (View.ofSequence (.view v)).size = v.size

variable {checked : Bool} {s : ResourceSequence τ} {v : View τ} {body : τ → α} {tfers : List τ}

/-! ### What a loop visits -/

theorem loop_of_eq (body : τ → α) (it : Nat) (tfers : List τ) : loop body it it tfers = .ok [] := by
  cases tfers <;> simp [loop]

/-- A loop that ends among the resources visits those before its end. -/
theorem loop_eq {it n : Nat} (within : n ≤ tfers.length) :
    loop body (it + n) it tfers = .ok ((tfers.take n).map body) := by
  induction tfers generalizing it n with
  | nil =>
    obtain rfl := Nat.le_zero.mp within
    exact loop_of_eq ..
  | cons tfer rest ih =>
    cases n with
    | zero => exact loop_of_eq ..
    | succ n =>
      have later : loop body (it + (n + 1)) (it + 1) rest = .ok ((rest.take n).map body) := by
        rw [← Nat.add_assoc, Nat.add_right_comm]
        exact ih (Nat.le_of_succ_le_succ within)
      rw [loop, if_neg (by omega), later]
      rfl

theorem transferEnd_of (s : ResourceSequence τ) : (TransferSequence.of s).transferEnd = s.transfers.length := by
  cases s <;> rfl

theorem forEach_of (s : ResourceSequence τ) (body : τ → α) : forEach (.of s) body = .ok (s.transfers.map body) := by
  have whole : loop body (0 + s.transfers.length) 0 s.transfers = _ := loop_eq le_rfl
  rw [List.take_length, Nat.zero_add] at whole
  rw [forEach, transferEnd_of]
  exact whole

theorem forEach_view (v : View τ) (body : τ → α) : forEach (.view v) body = .ok [] := loop_of_eq ..

theorem size_ofSequence (s : ResourceSequence τ) : (View.ofSequence (.of s)).size = s.transfers.length :=
  transferEnd_of s

theorem size_ofView (v : View τ) : (View.ofSequence (.view v)).size = 0 := Nat.sub_self _

theorem sameOperations_of {s t : TransferSequence τ}
    (same : ∀ body : τ → LibusbCall τ, forEach s body = forEach t body) :
    SameOperations checked s t where
  cancel := same _
  control ep timeoutMs := by rw [prefillControl, prefillControl, same]
  bulk ep timeoutMs := same _
  interrupt ep timeoutMs := same _
  isochronous ep isoPackets timeoutMs := same _
  bulkStream ep streamId timeoutMs := same _

/-! ### Views of views -/

theorem ViewOf.size_of_empty (built : ViewOf s v) (empty : s.transfers = []) : v.size = 0 := by
  cases built with
  | first => rw [size_ofSequence, empty, List.length_nil]
  | again built => exact size_ofView _

theorem ViewOf.represents (built : ViewOf s v) (empty : s.transfers = []) : Represents checked s v where
  visits := by rw [visited, forEach_view, empty]
  size := by rw [built.size_of_empty empty, empty, List.length_nil]
  operations := sameOperations_of fun body => by rw [forEach_view, forEach_of, empty, List.map_nil]
  visitsAgain := (forEach_view _ _).trans (forEach_view _ _).symm
  sizeAgain := by rw [size_ofView, built.size_of_empty empty]

/-- The views built from a sequence and from its views are the sequence exactly when it is empty. -/
theorem view_is_sequence_iff (checked : Bool) (s : ResourceSequence τ) :
    (∀ v, ViewOf s v → Represents checked s v) ↔ s.transfers = [] := by
  constructor
  · intro represents
    have visits := (represents _ .first).visits
    rw [visited, forEach_view] at visits
    exact (Except.ok.inj visits).symm
  · intro empty v built
    exact built.represents empty

/-- The view of one transfer has size one, an iteration visits nothing, and nothing is cancelled or filled. -/
theorem view_of_one_transfer_visits_nothing :
    (View.ofSequence (.of (.resource 7))).size = 1 ∧ visited (.view (.ofSequence (.of (.resource 7)))) = .ok [] ∧
    cancelTransfer (.view (.ofSequence (.of (.resource 7)))) = .ok [] ∧
    cancelTransfer (.of (.resource 7)) = .ok [.cancelTransfer 7] ∧
    ¬ ∀ v, ViewOf (.resource 7) v → Represents true (.resource 7) v := by
  refine ⟨rfl, rfl, rfl, rfl, fun represents => ?_⟩
  have visits := (represents _ .first).visits
  cases visits

end CoUsb.Transfer

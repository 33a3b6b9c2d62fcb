import CoUsb.Libusb
import CoUsb.Transfer.Operations

/-!
# Prefilled transfers

What the prefill operations, and the constructors of the I/O adapters that call them, leave in the transfers.
-/

namespace CoUsb.Transfer

variable {τ : Type} {direction : EndpointDirection}

/-! ### The fill functions of libusb -/

/-- What is set up in a transfer before it is submitted. -/
structure Fields where
  type : TransferType := .control
  devHandle : Nat := 0
  endpoint : UInt8 := 0
  timeout : Nat := 0
  numIsoPackets : Int := 0
  streamId : UInt32 := 0
  deriving DecidableEq, Repr

/-- libusb's fill functions, which are no part of this library. -/
structure FillFunctions where
  controlTransfer : Fields → (devHandle timeout : Nat) → Fields
  bulkTransfer : Fields → (devHandle : Nat) → (endpoint : UInt8) → (timeout : Nat) → Fields
  interruptTransfer : Fields → (devHandle : Nat) → (endpoint : UInt8) → (timeout : Nat) → Fields
  isoTransfer : Fields → (devHandle : Nat) → (endpoint : UInt8) → (numIsoPackets : Int) → (timeout : Nat) → Fields
  bulkStreamTransfer :
    Fields → (devHandle : Nat) → (endpoint : UInt8) → (streamId : UInt32) → (timeout : Nat) → Fields

/-- The fields every fill function writes. -/
structure Fields.Written (type : TransferType) (devHandle timeout : Nat) (tfer : Fields) : Prop where
  type : tfer.type = type
  devHandle : tfer.devHandle = devHandle
  timeout : tfer.timeout = timeout

/-- What libusb documents: each function writes its type and its arguments. -/
structure FillFunctions.Documented (fill : FillFunctions) : Prop where
  controlTransfer : ∀ tfer devHandle timeout,
    (fill.controlTransfer tfer devHandle timeout).Written .control devHandle timeout
  bulkTransfer : ∀ tfer devHandle endpoint timeout,
    (fill.bulkTransfer tfer devHandle endpoint timeout).Written .bulk devHandle timeout ∧
    (fill.bulkTransfer tfer devHandle endpoint timeout).endpoint = endpoint
  interruptTransfer : ∀ tfer devHandle endpoint timeout,
    (fill.interruptTransfer tfer devHandle endpoint timeout).Written .interrupt devHandle timeout ∧
    (fill.interruptTransfer tfer devHandle endpoint timeout).endpoint = endpoint
  isoTransfer : ∀ tfer devHandle endpoint numIsoPackets timeout,
    (fill.isoTransfer tfer devHandle endpoint numIsoPackets timeout).Written .isochronous devHandle timeout ∧
    (fill.isoTransfer tfer devHandle endpoint numIsoPackets timeout).endpoint = endpoint ∧
    (fill.isoTransfer tfer devHandle endpoint numIsoPackets timeout).numIsoPackets = numIsoPackets
  bulkStreamTransfer : ∀ tfer devHandle endpoint streamId timeout,
    (fill.bulkStreamTransfer tfer devHandle endpoint streamId timeout).Written .bulkStream devHandle timeout ∧
    (fill.bulkStreamTransfer tfer devHandle endpoint streamId timeout).endpoint = endpoint ∧
    (fill.bulkStreamTransfer tfer devHandle endpoint streamId timeout).streamId = streamId

namespace LibusbCall

/-- The transfer a call is about. -/
def transfer : LibusbCall τ → τ
  | .cancelTransfer tfer | .fillControlTransfer tfer _ _ | .fillBulkTransfer tfer _ _ _
  | .fillInterruptTransfer tfer _ _ _ | .fillIsoTransfer tfer _ _ _ _ | .fillBulkStreamTransfer tfer _ _ _ _ => tfer

def writes (fill : FillFunctions) : LibusbCall τ → Fields → Fields
  | .cancelTransfer _, tfer => tfer
  | .fillControlTransfer _ devh timeout, tfer => fill.controlTransfer tfer devh timeout
  | .fillBulkTransfer _ devh endpoint timeout, tfer => fill.bulkTransfer tfer devh endpoint timeout
  | .fillInterruptTransfer _ devh endpoint timeout, tfer => fill.interruptTransfer tfer devh endpoint timeout
  | .fillIsoTransfer _ devh endpoint numIsoPackets timeout, tfer =>
    fill.isoTransfer tfer devh endpoint numIsoPackets timeout
  | .fillBulkStreamTransfer _ devh endpoint streamId timeout, tfer =>
    fill.bulkStreamTransfer tfer devh endpoint streamId timeout

end LibusbCall

abbrev Memory (τ : Type) := τ → Fields

def perform [DecidableEq τ] (fill : FillFunctions) (memory : Memory τ) (call : LibusbCall τ) : Memory τ :=
  Function.update memory call.transfer (call.writes fill (memory call.transfer))

/-- The memory after an operation; a failed assertion ends the program. -/
def performAll [DecidableEq τ] (fill : FillFunctions) (memory : Memory τ)
    (calls : Except Fault (List (LibusbCall τ))) : Except Fault (Memory τ) :=
  calls.map fun calls => calls.foldl (perform fill) memory

/-! ### The kinds -/

inductive Kind where
  | control
  | bulk
  | interrupt
  | isochronous (isoPackets : Int)
  | bulkStream (streamId : UInt32)
  deriving DecidableEq, Repr

def prefill (checked : Bool) (kind : Kind) (s : TransferSequence τ) (ep : Endpoint direction) (timeoutMs : Int) :
    Except Fault (List (LibusbCall τ)) :=
  match kind with
  | .control => prefillControl checked s ep timeoutMs
  | .bulk => prefillBulk s ep timeoutMs
  | .interrupt => prefillInterrupt s ep timeoutMs
  | .isochronous isoPackets => prefillIsochronous s ep isoPackets timeoutMs
  | .bulkStream streamId => prefillBulkStream s ep streamId timeoutMs

/-! ### The adapters -/

/-- `partial_io_base` -/
structure PartialIo (τ : Type) where
  mView : View τ

/-- `complete_io_base` -/
structure CompleteIo (τ : Type) extends PartialIo τ where
  mSingleTransferLimit : Nat

section

variable [DecidableEq τ] (fill : FillFunctions) (checked : Bool) (memory : Memory τ) (s : TransferSequence τ)
  (ep : Endpoint direction) (timeoutMs : Int)

/-- The base takes its view of the sequence, then the body of the constructor prefills. -/
def construct {α : Type} (base : α) (prefilled : Except Fault (List (LibusbCall τ))) : Except Fault (α × Memory τ) :=
  (performAll fill memory prefilled).map fun after => (base, after)

def controlPartialIo : Except Fault (PartialIo τ × Memory τ) :=
  construct fill memory ⟨.ofSequence s⟩ (prefillControl checked s ep timeoutMs)

def bulkPartialIo : Except Fault (PartialIo τ × Memory τ) :=
  construct fill memory ⟨.ofSequence s⟩ (prefillBulk s ep timeoutMs)

def interruptPartialIo : Except Fault (PartialIo τ × Memory τ) :=
  construct fill memory ⟨.ofSequence s⟩ (prefillInterrupt s ep timeoutMs)

def isochronousPartialIo (isoPackets : Int) : Except Fault (PartialIo τ × Memory τ) :=
  construct fill memory ⟨.ofSequence s⟩ (prefillIsochronous s ep isoPackets timeoutMs)

def bulkStreamPartialIo (streamId : UInt32) : Except Fault (PartialIo τ × Memory τ) :=
  construct fill memory ⟨.ofSequence s⟩ (prefillBulkStream s ep streamId timeoutMs)

def partialIo (kind : Kind) : Except Fault (PartialIo τ × Memory τ) :=
  match kind with
  | .control => controlPartialIo fill checked memory s ep timeoutMs
  | .bulk => bulkPartialIo fill memory s ep timeoutMs
  | .interrupt => interruptPartialIo fill memory s ep timeoutMs
  | .isochronous isoPackets => isochronousPartialIo fill memory s ep timeoutMs isoPackets
  | .bulkStream streamId => bulkStreamPartialIo fill memory s ep timeoutMs streamId

variable (singleTransferLimit : Nat)

def controlCompleteIo : Except Fault (CompleteIo τ × Memory τ) :=
  construct fill memory ⟨⟨.ofSequence s⟩, singleTransferLimit⟩ (prefillControl checked s ep timeoutMs)

def bulkCompleteIo : Except Fault (CompleteIo τ × Memory τ) :=
  construct fill memory ⟨⟨.ofSequence s⟩, singleTransferLimit⟩ (prefillBulk s ep timeoutMs)

def interruptCompleteIo : Except Fault (CompleteIo τ × Memory τ) :=
  construct fill memory ⟨⟨.ofSequence s⟩, singleTransferLimit⟩ (prefillInterrupt s ep timeoutMs)

def isochronousCompleteIo (isoPackets : Int) : Except Fault (CompleteIo τ × Memory τ) :=
  construct fill memory ⟨⟨.ofSequence s⟩, singleTransferLimit⟩ (prefillIsochronous s ep isoPackets timeoutMs)

def bulkStreamCompleteIo (streamId : UInt32) : Except Fault (CompleteIo τ × Memory τ) :=
  construct fill memory ⟨⟨.ofSequence s⟩, singleTransferLimit⟩ (prefillBulkStream s ep streamId timeoutMs)

def completeIo (kind : Kind) : Except Fault (CompleteIo τ × Memory τ) :=
  match kind with
  | .control => controlCompleteIo fill checked memory s ep timeoutMs singleTransferLimit
  | .bulk => bulkCompleteIo fill memory s ep timeoutMs singleTransferLimit
  | .interrupt => interruptCompleteIo fill memory s ep timeoutMs singleTransferLimit
  | .isochronous isoPackets => isochronousCompleteIo fill memory s ep timeoutMs singleTransferLimit isoPackets
  | .bulkStream streamId => bulkStreamCompleteIo fill memory s ep timeoutMs singleTransferLimit streamId

end

/-! ### The law -/

namespace Kind

def type : Kind → TransferType
  | .control => .control
  | .bulk => .bulk
  | .interrupt => .interrupt
  | .isochronous _ => .isochronous
  | .bulkStream _ => .bulkStream

/-- The endpoints a kind is for. -/
def Admits : Kind → Endpoint direction → Prop
  | .control, ep => ep.addr = match direction with | .out => 0x00 | .in => 0x80
  | _, ep => ep.addr &&& 0x80 = match direction with | .out => 0x00 | .in => 0x80

/-- The fields that only some kinds have. -/
def Particulars : Kind → Endpoint direction → Fields → Prop
  | .control, _, _ => True
  | .bulk, ep, tfer | .interrupt, ep, tfer => tfer.endpoint = ep.addr
  | .isochronous isoPackets, ep, tfer => tfer.endpoint = ep.addr ∧ tfer.numIsoPackets = isoPackets
  | .bulkStream streamId, ep, tfer => tfer.endpoint = ep.addr ∧ tfer.streamId = streamId

end Kind

/-- The transfer is set up as was asked for. -/
structure Configured (kind : Kind) (ep : Endpoint direction) (timeoutMs : Int) (tfer : Fields) : Prop where
  type : tfer.type = kind.type
  devHandle : tfer.devHandle = ep.devh
  timeout : tfer.timeout = timeoutMs
  particulars : kind.Particulars ep tfer

/-- No assertion fails, the transfers `tfers` are set up and all others are as they were. -/
def Configures (kind : Kind) (ep : Endpoint direction) (timeoutMs : Int) (tfers : List τ) (before : Memory τ)
    (result : Except Fault (Memory τ)) : Prop :=
  ∃ after, result = .ok after ∧ (∀ t ∈ tfers, Configured kind ep timeoutMs (after t)) ∧
    ∀ t, t ∉ tfers → after t = before t

/-- The operation and the construction of both adapters. -/
structure Prefills [DecidableEq τ] (fill : FillFunctions) (checked : Bool) (kind : Kind) (s : ResourceSequence τ)
    (ep : Endpoint direction) (timeoutMs : Int) (limit : Nat) (memory : Memory τ) : Prop where
  operation : Configures kind ep timeoutMs s.transfers memory
    (performAll fill memory (prefill checked kind (.of s) ep timeoutMs))
  partialIo : Configures kind ep timeoutMs s.transfers memory
    ((Transfer.partialIo fill checked memory (.of s) ep timeoutMs kind).map Prod.snd)
  completeIo : Configures kind ep timeoutMs s.transfers memory
    ((Transfer.completeIo fill checked memory (.of s) ep timeoutMs limit kind).map Prod.snd)

/-! ### The assertions -/

theorem prefillControl_fails (s : TransferSequence τ) (ep : Endpoint direction) (timeoutMs : Int) :
    ∃ text, prefillControl true s ep timeoutMs = .error (.assertion text) := by
  unfold prefillControl
  cases direction with
  | out =>
    cases ep.addr == 0x00 with
    | true => exact ⟨"IN control transfers must have an endpoint address of 0x80", by simp [cousbAssert]; rfl⟩
    | false => exact ⟨"OUT control transfers must have an endpoint address of 0x00", by simp [cousbAssert]; rfl⟩
  | «in» => exact ⟨"OUT control transfers must have an endpoint address of 0x00", by simp [cousbAssert]; rfl⟩

section

variable [DecidableEq τ] {fill : FillFunctions} {checked : Bool} {kind : Kind} {s : ResourceSequence τ}
  {ep : Endpoint direction} {timeoutMs : Int} {limit : Nat} {memory : Memory τ} {tfers : List τ} {t : τ}
  {body : τ → LibusbCall τ}

/-! ### What a loop leaves -/

theorem foldl_perform_of_notMem (transfer : ∀ u, (body u).transfer = u) (outside : t ∉ tfers) :
    (tfers.map body).foldl (perform fill) memory t = memory t := by
  induction tfers generalizing memory with
  | nil => rfl
  | cons u rest ih =>
    rw [List.mem_cons, not_or] at outside
    obtain ⟨other, later⟩ := outside
    rw [List.map_cons, List.foldl_cons, ih later, perform, transfer, Function.update_of_ne other]

theorem foldl_perform_of_mem {R : Fields → Prop} (transfer : ∀ u, (body u).transfer = u)
    (writes : ∀ u tfer, R ((body u).writes fill tfer)) (inside : t ∈ tfers) :
    R ((tfers.map body).foldl (perform fill) memory t) := by
  induction tfers generalizing memory with
  | nil => cases inside
  | cons u rest ih =>
    rw [List.map_cons, List.foldl_cons]
    by_cases later : t ∈ rest
    · exact ih later
    · obtain rfl := (List.mem_cons.mp inside).resolve_right later
      rw [foldl_perform_of_notMem transfer later, perform, transfer, Function.update_self]
      exact writes t _

theorem configures_forEach (transfer : ∀ u, (body u).transfer = u)
    (writes : ∀ u tfer, Configured kind ep timeoutMs ((body u).writes fill tfer)) :
    Configures kind ep timeoutMs s.transfers memory (performAll fill memory (forEach (.of s) body)) := by
  rw [forEach_of]
  refine ⟨_, rfl, fun t inside => ?_, fun t outside => ?_⟩
  · exact foldl_perform_of_mem transfer writes inside
  · exact foldl_perform_of_notMem transfer outside

theorem toUnsigned_of_lt {n : Int} (nonneg : 0 ≤ n) (bound : n < 2 ^ 32) : (toUnsigned n : Int) = n := by
  unfold toUnsigned
  omega

theorem Configured.of_written {tfer : Fields} (written : tfer.Written kind.type ep.devh (toUnsigned timeoutMs))
    (nonneg : 0 ≤ timeoutMs) (bound : timeoutMs < 2 ^ 32) (particulars : kind.Particulars ep tfer) :
    Configured kind ep timeoutMs tfer := by
  obtain ⟨type, devHandle, timeout⟩ := written
  exact ⟨type, devHandle, timeout ▸ toUnsigned_of_lt nonneg bound, particulars⟩

/-- Only the assertions of control transfers stand in the way. -/
theorem configures_prefill (documented : fill.Documented) (nonneg : 0 ≤ timeoutMs) (bound : timeoutMs < 2 ^ 32)
    (unasserted : kind = .control → checked = false) :
    Configures kind ep timeoutMs s.transfers memory
      (performAll fill memory (prefill checked kind (.of s) ep timeoutMs)) := by
  cases kind with
  | control =>
    obtain rfl := unasserted rfl
    exact configures_forEach (fun _ => rfl) fun _ tfer =>
      .of_written (documented.controlTransfer tfer ..) nonneg bound trivial
  | bulk =>
    refine configures_forEach (fun _ => rfl) fun _ tfer => ?_
    obtain ⟨written, endpoint⟩ := documented.bulkTransfer tfer ep.devh ep.addr (toUnsigned timeoutMs)
    exact .of_written written nonneg bound endpoint
  | interrupt =>
    refine configures_forEach (fun _ => rfl) fun _ tfer => ?_
    obtain ⟨written, endpoint⟩ := documented.interruptTransfer tfer ep.devh ep.addr (toUnsigned timeoutMs)
    exact .of_written written nonneg bound endpoint
  | isochronous isoPackets =>
    refine configures_forEach (fun _ => rfl) fun _ tfer => ?_
    obtain ⟨written, particulars⟩ := documented.isoTransfer tfer ep.devh ep.addr isoPackets (toUnsigned timeoutMs)
    exact .of_written written nonneg bound particulars
  | bulkStream streamId =>
    refine configures_forEach (fun _ => rfl) fun _ tfer => ?_
    obtain ⟨written, particulars⟩ := documented.bulkStreamTransfer tfer ep.devh ep.addr streamId (toUnsigned timeoutMs)
    exact .of_written written nonneg bound particulars

/-! ### The adapters prefill -/

theorem construct_memory {α : Type} (base : α) (prefilled : Except Fault (List (LibusbCall τ))) :
    (construct fill memory base prefilled).map Prod.snd = performAll fill memory prefilled := by
  cases prefilled <;> rfl

theorem partialIo_memory (s : TransferSequence τ) :
    (partialIo fill checked memory s ep timeoutMs kind).map Prod.snd =
      performAll fill memory (prefill checked kind s ep timeoutMs) := by
  cases kind <;> exact construct_memory ..

theorem completeIo_memory (s : TransferSequence τ) :
    (completeIo fill checked memory s ep timeoutMs limit kind).map Prod.snd =
      performAll fill memory (prefill checked kind s ep timeoutMs) := by
  cases kind <;> exact construct_memory ..

theorem prefills_iff : Prefills fill checked kind s ep timeoutMs limit memory ↔
    Configures kind ep timeoutMs s.transfers memory
      (performAll fill memory (prefill checked kind (.of s) ep timeoutMs)) := by
  constructor
  · exact Prefills.operation
  · intro operation
    exact ⟨operation, by rwa [partialIo_memory], by rwa [completeIo_memory]⟩

end

/-- A sequence is prefilled as asked for, by the operation and by both adapters, exactly when it is not prefilled
with control transfers by a program that checks assertions. -/
theorem prefill_configures_iff [DecidableEq τ] (fill : FillFunctions) (checked : Bool) (kind : Kind)
    (s : ResourceSequence τ) (ep : Endpoint direction) (timeoutMs : Int) (limit : Nat) (memory : Memory τ)
    (documented : fill.Documented) (nonneg : 0 ≤ timeoutMs) (bound : timeoutMs < 2 ^ 32) :
    Prefills fill checked kind s ep timeoutMs limit memory ↔ (kind = .control → checked = false) := by
  rw [prefills_iff]
  constructor
  · rintro ⟨after, result, _⟩ rfl
    cases checked with
    | false => rfl
    | true =>
      obtain ⟨text, failed⟩ := prefillControl_fails (.of s) ep timeoutMs
      rw [prefill, failed] at result
      cases result
  · exact configures_prefill documented nonneg bound

/-- Functions that write the fields one by one; a control transfer gets the endpoint 0. -/
def fillFields : FillFunctions where
  controlTransfer tfer devHandle timeout := { tfer with type := .control, devHandle, timeout, endpoint := 0 }
  bulkTransfer tfer devHandle endpoint timeout := { tfer with type := .bulk, devHandle, timeout, endpoint }
  interruptTransfer tfer devHandle endpoint timeout := { tfer with type := .interrupt, devHandle, timeout, endpoint }
  isoTransfer tfer devHandle endpoint numIsoPackets timeout :=
    { tfer with type := .isochronous, devHandle, timeout, endpoint, numIsoPackets }
  bulkStreamTransfer tfer devHandle endpoint streamId timeout :=
    { tfer with type := .bulkStream, devHandle, timeout, endpoint, streamId }

theorem fillFields_documented : fillFields.Documented where
  controlTransfer _ _ _ := ⟨rfl, rfl, rfl⟩
  bulkTransfer _ _ _ _ := ⟨⟨rfl, rfl, rfl⟩, rfl⟩
  interruptTransfer _ _ _ _ := ⟨⟨rfl, rfl, rfl⟩, rfl⟩
  isoTransfer _ _ _ _ _ := ⟨⟨rfl, rfl, rfl⟩, rfl, rfl⟩
  bulkStreamTransfer _ _ _ _ _ := ⟨⟨rfl, rfl, rfl⟩, rfl, rfl⟩

theorem prefill_configures_iff_bulk :
    Prefills fillFields true .bulk (.range [3, 5]) (⟨1, 0x02⟩ : Endpoint .out) 250 512
      (fun _ : Nat => { type := .isochronous }) ∧
    ¬ Prefills fillFields true .control (.range [3, 5]) (⟨1, 0x00⟩ : Endpoint .out) 250 512
      (fun _ : Nat => { type := .isochronous }) :=
  ⟨(prefill_configures_iff _ _ _ _ _ _ _ _ fillFields_documented (by decide) (by decide)).mpr (by simp),
    fun prefills => absurd
      ((prefill_configures_iff _ _ _ _ _ _ _ _ fillFields_documented (by decide) (by decide)).mp prefills rfl)
      (by simp)⟩

/-- The default control endpoint of either direction is refused. -/
theorem control_endpoints_refused :
    Kind.Admits .control (⟨1, 0x00⟩ : Endpoint .out) ∧ Kind.Admits .control (⟨1, 0x80⟩ : Endpoint .in) ∧
    prefillControl true (.of (.resource 3)) (⟨1, 0x00⟩ : Endpoint .out) 0 =
      .error (.assertion "IN control transfers must have an endpoint address of 0x80") ∧
    prefillControl true (.of (.resource 3)) (⟨1, 0x80⟩ : Endpoint .in) 0 =
      .error (.assertion "OUT control transfers must have an endpoint address of 0x00") ∧
    ¬ Prefills fillFields true .control (.resource 3) (⟨1, 0x00⟩ : Endpoint .out) 0 512 (fun _ : Nat => {}) ∧
    ¬ Prefills fillFields true .control (.resource 3) (⟨1, 0x80⟩ : Endpoint .in) 0 512 (fun _ : Nat => {}) := by
  refine ⟨rfl, rfl, rfl, rfl, fun prefills => ?_, fun prefills => ?_⟩
  all_goals
    obtain ⟨after, result, _⟩ := prefills.operation
    cases result

end CoUsb.Transfer

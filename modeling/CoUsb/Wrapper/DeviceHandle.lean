import CoUsb.Wrapper.DeviceTriplet
import CoUsb.Wrapper.ErrorProtocol

/-!
# `device_handle`

`open_device` by triplet, on the devices of the bus in the order libusb lists them.
-/

namespace CoUsb

structure Device where
  dev : Nat
  descriptor : DeviceDescriptor
  deriving DecidableEq, Repr

/-- A handle is named by the device it was opened on. -/
structure DeviceHandle where
  mStorage : Device
  deriving DecidableEq, Repr

namespace DeviceHandle

/-- The first device with these ids; opening it succeeds. -/
def libusbOpenDeviceWithVidPid (bus : List Device) (vid pid : UInt16) : Option Device :=
  bus.find? fun d => d.descriptor.idVendor == vid && d.descriptor.idProduct == pid

/-- `usb_error::unknown` -/
def unknown : Int := -99

/-- The `int` fields of the triplet are converted to the `uint16_t` parameters. -/
def openDevice (bus : List Device) (triplet : DeviceTriplet) (errp : ErrorProtocol) : Reply DeviceHandle :=
  match libusbOpenDeviceWithVidPid bus (.ofInt triplet.vid) (.ofInt triplet.pid) with
  | none => errp.withError (makeUsbErrorCode unknown)
  | some devh => errp.withSuccess ⟨devh⟩

/-! ### The law -/

/-- The device has the ids that are passed to libusb. -/
def HasIds (triplet : DeviceTriplet) (d : Device) : Prop :=
  d.descriptor.idVendor = .ofInt triplet.vid ∧ d.descriptor.idProduct = .ofInt triplet.pid

def Matches (triplet : DeviceTriplet) (d : Device) : Prop :=
  wildcardTripletComparator triplet (tripletFromDescriptor d.descriptor) = true

instance (triplet : DeviceTriplet) (d : Device) : Decidable (Matches triplet d) :=
  inferInstanceAs (Decidable (_ = true))

/-- The call succeeds when a device matches, and opens one that does. -/
structure Respects (bus : List Device) (triplet : DeviceTriplet) (reply : Reply DeviceHandle) : Prop where
  succeeds : (∃ handle, reply.object = some handle) ↔ ∃ d ∈ bus, Matches triplet d
  opened : ∀ handle, reply.object = some handle → handle.mStorage ∈ bus ∧ Matches triplet handle.mStorage

/-- The first device on the bus with the ids passed to libusb. -/
def First (bus : List Device) (triplet : DeviceTriplet) (d : Device) : Prop :=
  HasIds triplet d ∧ ∃ before after, bus = before ++ d :: after ∧ ∀ a ∈ before, ¬ HasIds triplet a

/-- A wildcard or an id of 16 bits. -/
def IdField (field : Int) : Prop := field = matchAny ∨ 0 ≤ field ∧ field < 2 ^ 16

/-- The ids passed to libusb stand for what the triplet asks for on this bus. -/
def TakenLiterally (bus : List Device) (triplet : DeviceTriplet) : Prop :=
  (∃ d, First bus triplet d ∧ IdField triplet.vid ∧ IdField triplet.pid ∧
    (triplet.devClass = matchAny ∨ triplet.devClass = d.descriptor.bDeviceClass.toNat)) ∨
  (∀ d ∈ bus, ¬ HasIds triplet d) ∧
    (triplet.vid ≠ matchAny ∧ triplet.pid ≠ matchAny ∨ ∀ d ∈ bus, ¬ Matches triplet d)

variable {bus : List Device} {triplet : DeviceTriplet} {d : Device} {field : Int}

/-! ### Ids -/

/-- No descriptor field is a wildcard. -/
theorem cmp_iff (n : Nat) : wildcardTripletComparator.cmp field n = true ↔ field = matchAny ∨ field = n := by
  have concrete : (n : Int) ≠ matchAny := by
    unfold matchAny
    omega
  simp only [wildcardTripletComparator.cmp, Bool.or_eq_true, beq_iff_eq, concrete, or_false]
  exact Or.comm

theorem matches_iff : Matches triplet d ↔
    (triplet.vid = matchAny ∨ triplet.vid = d.descriptor.idVendor.toNat) ∧
    (triplet.pid = matchAny ∨ triplet.pid = d.descriptor.idProduct.toNat) ∧
    (triplet.devClass = matchAny ∨ triplet.devClass = d.descriptor.bDeviceClass.toNat) := by
  simp only [Matches, wildcardTripletComparator, tripletFromDescriptor, Bool.and_eq_true, cmp_iff, and_assoc]

theorem toNat_ofInt (field : Int) : ((UInt16.ofInt field).toNat : Int) = field % 2 ^ 16 := by
  rw [UInt16.ofInt, UInt16.toNat_ofNat']
  omega

theorem eq_ofInt_iff : field = (UInt16.ofInt field).toNat ↔ 0 ≤ field ∧ field < 2 ^ 16 := by
  rw [toNat_ofInt]
  omega

theorem ofInt_toNat (id : UInt16) : UInt16.ofInt id.toNat = id := by
  apply UInt16.toNat_inj.mp
  have same := toNat_ofInt id.toNat
  have bound := id.toNat_lt
  omega

theorem HasIds.matches_iff (ids : HasIds triplet d) : Matches triplet d ↔
    IdField triplet.vid ∧ IdField triplet.pid ∧
      (triplet.devClass = matchAny ∨ triplet.devClass = d.descriptor.bDeviceClass.toNat) := by
  rw [DeviceHandle.matches_iff, ids.1, ids.2, eq_ofInt_iff, eq_ofInt_iff]
  rfl

theorem hasIds_of_matches (vendor : triplet.vid ≠ matchAny) (product : triplet.pid ≠ matchAny)
    (same : Matches triplet d) : HasIds triplet d := by
  obtain ⟨vid, pid, _⟩ := matches_iff.mp same
  constructor
  · rw [vid.resolve_left vendor, ofInt_toNat]
  · rw [pid.resolve_left product, ofInt_toNat]

/-! ### The device opened -/

theorem open_eq_some_iff :
    libusbOpenDeviceWithVidPid bus (.ofInt triplet.vid) (.ofInt triplet.pid) = some d ↔ First bus triplet d := by
  simp only [libusbOpenDeviceWithVidPid, List.find?_eq_some_iff_append, First, HasIds, Bool.and_eq_true,
    Bool.not_eq_true', Bool.and_eq_false_imp, beq_iff_eq, beq_eq_false_iff_ne, not_and, ne_eq]

theorem open_eq_none_iff :
    libusbOpenDeviceWithVidPid bus (.ofInt triplet.vid) (.ofInt triplet.pid) = none ↔ ∀ d ∈ bus, ¬ HasIds triplet d := by
  simp only [libusbOpenDeviceWithVidPid, List.find?_eq_none, HasIds, Bool.and_eq_true, beq_iff_eq]

theorem First.member (first : First bus triplet d) : d ∈ bus := by
  obtain ⟨_, before, after, rfl, _⟩ := first
  exact List.mem_append_right _ List.mem_cons_self

theorem respects_withSuccess (errp : ErrorProtocol) (member : d ∈ bus) :
    Respects bus triplet (errp.withSuccess ⟨d⟩) ↔ Matches triplet d := by
  constructor
  · intro respects
    exact (respects.opened ⟨d⟩ (object_withSuccess errp _)).2
  · intro same
    refine ⟨iff_of_true ⟨⟨d⟩, object_withSuccess errp _⟩ ⟨d, member, same⟩, fun handle made => ?_⟩
    rw [object_withSuccess] at made
    obtain rfl := Option.some.inj made
    exact ⟨member, same⟩

theorem respects_withError (errp : ErrorProtocol) (ec : ErrorCode) :
    Respects bus triplet (errp.withError ec) ↔ ∀ d ∈ bus, ¬ Matches triplet d := by
  constructor
  · intro respects d member same
    obtain ⟨handle, made⟩ := respects.succeeds.mpr ⟨d, member, same⟩
    simp at made
  · intro none
    refine ⟨iff_of_false (by simp) ?_, fun handle made => ?_⟩
    · rintro ⟨d, member, same⟩
      exact none d member same
    · simp at made

/-- `open_device` respects the triplet exactly when its fields mean to libusb what they mean to the comparator. -/
theorem open_device_respects_iff (bus : List Device) (triplet : DeviceTriplet) (errp : ErrorProtocol) :
    Respects bus triplet (openDevice bus triplet errp) ↔ TakenLiterally bus triplet := by
  unfold openDevice
  cases found : libusbOpenDeviceWithVidPid bus (.ofInt triplet.vid) (.ofInt triplet.pid) with
  | some d =>
    have first := open_eq_some_iff.mp found
    dsimp only
    rw [respects_withSuccess errp first.member, first.1.matches_iff]
    constructor
    · intro fields
      exact Or.inl ⟨d, first, fields⟩
    · rintro (⟨other, first', fields⟩ | ⟨none, _⟩)
      · obtain rfl := Option.some.inj ((open_eq_some_iff.mpr first').symm.trans found)
        exact fields
      · exact absurd first.1 (none d first.member)
  | none =>
    have none := open_eq_none_iff.mp found
    dsimp only
    rw [respects_withError]
    constructor
    · intro unmatched
      exact Or.inr ⟨none, Or.inr unmatched⟩
    · rintro (⟨d, first, _⟩ | ⟨_, concrete | unmatched⟩)
      · exact absurd first.1 (none d first.member)
      · intro d member same
        exact none d member (hasIds_of_matches concrete.1 concrete.2 same)
      · exact unmatched

/-- A device with the vendor asked for is on the bus and any product will do, but `0xFFFF` is asked for. -/
theorem wildcard_opens_nothing :
    openDevice [⟨7, 0x1234, 0x5678, 0⟩] { vid := 0x1234 } .asException = .thrown (makeUsbErrorCode unknown) ∧
    Matches { vid := 0x1234 } ⟨7, 0x1234, 0x5678, 0⟩ ∧
    ¬ Respects [⟨7, 0x1234, 0x5678, 0⟩] { vid := 0x1234 }
      (openDevice [⟨7, 0x1234, 0x5678, 0⟩] { vid := 0x1234 } .asException) := by
  refine ⟨rfl, by decide, fun respects => ?_⟩
  obtain ⟨handle, made⟩ := respects.succeeds.mpr ⟨⟨7, 0x1234, 0x5678, 0⟩, List.mem_singleton_self _, by decide⟩
  cases made

/-- The class is not looked at. -/
example : (openDevice [⟨7, 0x1234, 0x5678, 0⟩] ⟨0x1234, 0x5678, 9⟩ .asResults).object = some ⟨⟨7, 0x1234, 0x5678, 0⟩⟩ ∧
    ¬ Matches ⟨0x1234, 0x5678, 9⟩ ⟨7, 0x1234, 0x5678, 0⟩ := by decide

end DeviceHandle

end CoUsb

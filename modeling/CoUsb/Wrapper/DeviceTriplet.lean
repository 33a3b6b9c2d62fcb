/-!
# Device triplets
-/

namespace CoUsb

def matchAny : Int := -1

structure DeviceTriplet where
  vid : Int := matchAny
  pid : Int := matchAny
  devClass : Int := matchAny
  deriving DecidableEq, Repr

def wildcardTripletComparator (lhs rhs : DeviceTriplet) : Bool :=
  cmp lhs.vid rhs.vid && cmp lhs.pid rhs.pid && cmp lhs.devClass rhs.devClass
where
  cmp (lhs rhs : Int) : Bool := lhs == rhs || lhs == matchAny || rhs == matchAny

/-- The part of `libusb_device_descriptor` a triplet is made of. -/
structure DeviceDescriptor where
  idVendor : UInt16
  idProduct : UInt16
  bDeviceClass : UInt8
  deriving DecidableEq, Repr

def tripletFromDescriptor (desc : DeviceDescriptor) : DeviceTriplet where
  vid := desc.idVendor.toNat
  pid := desc.idProduct.toNat
  devClass := desc.bDeviceClass.toNat

end CoUsb

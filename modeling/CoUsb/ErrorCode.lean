import CoUsb.Libusb

/-!
# Error codes

`std::error_code` with the categories of `status.hpp` and `usb_error.hpp`, and the `std::errc`
values the library reports.
-/

namespace CoUsb

inductive Category where
  | system | generic | transferStatus | usbError
  deriving DecidableEq, Repr

structure ErrorCode where
  value : Int := 0
  category : Category := .system
  deriving DecidableEq, Repr

/-- `error_code::operator bool` -/
def ErrorCode.isError (ec : ErrorCode) : Bool := ec.value != 0

/-- `make_transfer_status`; a cast to `status` keeps the value of the integer. -/
def makeTransferStatus (e : Int) : ErrorCode := ⟨e, .transferStatus⟩

def makeUsbErrorCode (e : Int) : ErrorCode := ⟨e, .usbError⟩

inductive Errc where
  | invalidArgument | operationInProgress | operationCanceled
  deriving DecidableEq, Repr

def Errc.value : Errc → Int
  | .invalidArgument => 22
  | .operationInProgress => 115
  | .operationCanceled => 125

def makeErrorCode (e : Errc) : ErrorCode := ⟨e.value, .generic⟩

@[simp] theorem isError_makeErrorCode (e : Errc) : (makeErrorCode e).isError = true := by
  cases e <;> rfl

@[simp] theorem isError_default : ({} : ErrorCode).isError = false := rfl

@[simp] theorem isError_makeTransferStatus (e : Int) : (makeTransferStatus e).isError = true ↔ e ≠ 0 := by
  simp [ErrorCode.isError, makeTransferStatus]

@[simp] theorem isError_makeUsbErrorCode (e : Int) : (makeUsbErrorCode e).isError = true ↔ e ≠ 0 := by
  simp [ErrorCode.isError, makeUsbErrorCode]

end CoUsb

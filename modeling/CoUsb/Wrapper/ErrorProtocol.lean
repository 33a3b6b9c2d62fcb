import CoUsb.ErrorCode

/-!
# Error protocols

How a function that makes an object reports its result. `as_task_t` runs in a coroutine type from outside the
library.
-/

namespace CoUsb

inductive ErrorProtocol where
  | asException | asOptional | asExpected | asResults
  deriving DecidableEq, Repr

/-- What the caller is left with. -/
inductive Reply (α : Type) where
  | value (object : α)
  | thrown (ec : ErrorCode)
  /-- An optional, with the error code returned beside it or stored through the reference of the protocol. -/
  | optional (object : Option α) (ec : ErrorCode)
  | expected (object : Except ErrorCode α)
  deriving Repr

variable {α : Type}

namespace ErrorProtocol

def withError (errp : ErrorProtocol) (ec : ErrorCode) : Reply α :=
  match errp with
  | .asException => .thrown ec
  | .asOptional | .asResults => .optional none ec
  | .asExpected => .expected (.error ec)

def withSuccess (errp : ErrorProtocol) (object : α) : Reply α :=
  match errp with
  | .asException => .value object
  | .asOptional | .asResults => .optional (some object) {}
  | .asExpected => .expected (.ok object)

/-- The object comes in a `std::optional` or a `std::expected`, whose destructors are `noexcept`. -/
def wraps : ErrorProtocol → Bool
  | .asException => false
  | .asOptional | .asExpected | .asResults => true

end ErrorProtocol

namespace Reply

/-- The object that was made. -/
def object : Reply α → Option α
  | .value object | .expected (.ok object) => some object
  | .optional object _ => object
  | .thrown _ | .expected (.error _) => none

/-- The exception that was thrown. -/
def exception : Reply α → Option ErrorCode
  | .thrown ec => some ec
  | .value _ | .optional _ _ | .expected _ => none

end Reply

@[simp] theorem object_withError (errp : ErrorProtocol) (ec : ErrorCode) :
    (errp.withError ec : Reply α).object = none := by
  cases errp <;> rfl

@[simp] theorem object_withSuccess (errp : ErrorProtocol) (object : α) :
    (errp.withSuccess object).object = some object := by
  cases errp <;> rfl

end CoUsb

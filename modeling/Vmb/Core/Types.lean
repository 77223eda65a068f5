/-
# Vmb.Core.Types -- identifiers, errors and value objects of the domain layer

The plain data of `vmb-core`: the opaque identifiers the domain uses for adapter-owned resources,
the error type every port method returns, and the return-code check shared by the adapters.

A Rust call can also end in a panic that unwinds through its callers. The two panics the modelled
code can raise (an exhausted identifier counter, a slot vector that is too large) are kept as
`Exit.panicked`.
-/
import Mathlib.Data.UInt

namespace Vmb.Core

/-! ## How a call ends -/

/-- A call returns a value or panics; the panic unwinds through every caller. -/
inductive Exit (α : Type) where
  | returned (a : α)
  | panicked (message : String)
  deriving DecidableEq, Repr

/-! ## Opaque identifiers -/

/-- `NonZeroU64`. -/
abbrev NonZeroU64 := {n : UInt64 // n ≠ 0}

theorem nonZero_one : (1 : UInt64) ≠ 0 := by decide

theorem nonZero_two : (2 : UInt64) ≠ 0 := by decide

/-- Identifier of an opened camera. -/
structure CameraHandle where
  id : NonZeroU64
  deriving DecidableEq

/-- The raw numeric id. -/
def CameraHandle.asU64 (h : CameraHandle) : UInt64 := h.id.1

/-- Identifier of an announced frame slot. -/
structure FrameSlotId where
  id : UInt64
  deriving DecidableEq, Repr

/-- Identifier of a user frame callback stored in a callback registry. -/
structure FrameCallbackId where
  id : UInt64
  deriving DecidableEq, Repr

/-- Identifier of a user discovery callback stored in a callback registry. -/
structure DiscoveryCallbackId where
  id : UInt64
  deriving DecidableEq, Repr

/-- Identifier of an active discovery registration. -/
structure DiscoveryRegistrationHandle where
  id : UInt64
  deriving DecidableEq, Repr

/-! ## User closures and value objects -/

/-- A type-erased user closure over frames. The adapters never look inside one, so it is known by
the identity of the boxed closure. -/
structure FrameCallback where
  inner : Nat
  deriving DecidableEq, Repr

/-- A type-erased user closure over discovery events. -/
structure DiscoveryCallback where
  inner : Nat
  deriving DecidableEq, Repr

/-- Minimal pixel format representation. -/
inductive PixelFormat where
  | mono8
  | bgr8
  | other (raw : UInt32)
  deriving DecidableEq, Repr

/-- `PixelFormat::from_raw`. -/
def PixelFormat.fromRaw (raw : UInt32) : PixelFormat :=
  if raw = 0x01080001 then .mono8
  else if raw = 0x02180015 then .bgr8
  else .other raw

/-- The view of a received frame a closure gets. -/
structure Frame where
  data : List UInt8
  width : UInt32
  height : UInt32
  pixelFormat : PixelFormat
  timestampNs : UInt64
  frameId : UInt64
  deriving DecidableEq, Repr

/-- A filesystem path: on Unix, an arbitrary byte string. -/
abbrev Path := List UInt8

/-- Metadata of a discoverable camera. -/
structure CameraInfo where
  id : String
  model : String
  serial : String
  name : String
  deriving DecidableEq, Repr

/-- A discovery event, carrying the id of the camera it applies to. -/
inductive DiscoveryEvent where
  | detected (id : String)
  | missing (id : String)
  | reachable (id : String)
  | unreachable (id : String)
  deriving DecidableEq, Repr

/-! ## Errors -/

/-- Errors returned by the safe wrapper. -/
inductive VmbError where
  | sdk (code : Int32) (message : String)
  | notStarted
  | alreadyStarted
  | io (path : Path) (source : String)
  | invalidString (context : String)
  | captureAlreadyRunning
  | frameTooSmall (expected actual : Nat)
  | loadFailed (message : String)
  deriving DecidableEq

/-- `Result<T, VmbError>`. -/
abbrev Result (α : Type) := Except VmbError α

/-- The static name of a Vimba return code. -/
def errorName (code : Int32) : String :=
  match code.toInt with
  | 0 => "VmbErrorSuccess"
  | -1 => "VmbErrorInternalFault"
  | -2 => "VmbErrorApiNotStarted"
  | -3 => "VmbErrorNotFound"
  | -4 => "VmbErrorBadHandle"
  | -5 => "VmbErrorDeviceNotOpen"
  | -6 => "VmbErrorInvalidAccess"
  | -7 => "VmbErrorBadParameter"
  | -8 => "VmbErrorStructSize"
  | -9 => "VmbErrorMoreData"
  | -10 => "VmbErrorWrongType"
  | -11 => "VmbErrorInvalidValue"
  | -12 => "VmbErrorTimeout"
  | -13 => "VmbErrorOther"
  | -14 => "VmbErrorResources"
  | -15 => "VmbErrorInvalidCall"
  | -16 => "VmbErrorNoTL"
  | -17 => "VmbErrorNotImplemented"
  | -18 => "VmbErrorNotSupported"
  | -19 => "VmbErrorIncomplete"
  | -20 => "VmbErrorIO"
  | -21 => "VmbErrorValidValueSetNotPresent"
  | -22 => "VmbErrorGenTLUnspecified"
  | -23 => "VmbErrorUnspecified"
  | -24 => "VmbErrorBusy"
  | -25 => "VmbErrorNoData"
  | -26 => "VmbErrorParsingChunkData"
  | -27 => "VmbErrorInUse"
  | -28 => "VmbErrorUnknown"
  | -29 => "VmbErrorXml"
  | -30 => "VmbErrorNotAvailable"
  | -31 => "VmbErrorNotInitialized"
  | -32 => "VmbErrorInvalidAddress"
  | -33 => "VmbErrorAlready"
  | -34 => "VmbErrorNoChunkData"
  | -35 => "VmbErrorUserCallbackException"
  | -36 => "VmbErrorFeaturesUnavailable"
  | -37 => "VmbErrorTLNotFound"
  | -39 => "VmbErrorAmbiguous"
  | -40 => "VmbErrorRetriesExceeded"
  | -41 => "VmbErrorInsufficientBufferCount"
  | 1 => "VmbErrorCustom"
  | _ => "VmbErrorUnrecognized"

/-- The error of a failed SDK call. -/
def sdkError (code : Int32) : VmbError :=
  .sdk code s!"VmbC call failed ({errorName code})"

/-- Convert a raw return code into a `Result`. -/
def check (code : Int32) : Result Unit :=
  if code = 0 then .ok () else .error (sdkError code)

@[simp] theorem check_zero : check 0 = .ok () := rfl

theorem check_of_ne {code : Int32} (h : code ≠ 0) : check code = .error (sdkError code) := if_neg h

/-! ## The slot vector -/

/-- `isize::MAX` on the supported 64-bit targets. -/
def isizeMax : Nat := 2 ^ 63 - 1

/-- `mem::size_of::<FrameSlotId>()`. -/
def sizeOfFrameSlotId : Nat := 8

/-- `Vec::with_capacity` for slot ids: it panics when the allocation would exceed `isize::MAX`
bytes. -/
def withCapacity (capacity : Nat) : Exit (List FrameSlotId) :=
  if capacity * sizeOfFrameSlotId ≤ isizeMax then .returned [] else .panicked "capacity overflow"

/-- The slot vector of a capture with `n` buffers can be allocated. -/
def Allocatable (n : Nat) : Prop := n * sizeOfFrameSlotId ≤ isizeMax

instance (n : Nat) : Decidable (Allocatable n) := inferInstanceAs (Decidable (_ ≤ _))

end Vmb.Core

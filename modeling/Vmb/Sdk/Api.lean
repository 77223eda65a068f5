/-
# Vmb.Sdk.Api -- the VmbC functions the adapter calls

The functions of `VmbApi` that `vmb-ffi` uses, as the calls of a signature. A call carries the
arguments the adapter chooses (addresses as naturals, strings without their terminator) and its
answer carries the return code and the out-parameters. Arguments that are the same in every call of
the source (`ptr::null()`, `mem::size_of`) are left out.
-/
import Vmb.Lib.Prog
import Vmb.Lib.Utf8

namespace Vmb.Sdk

open Vmb.Lib

/-- `VmbHandle_t`, an address. -/
abbrev VmbHandle := Nat

/-- `G_VMB_HANDLE`, the global sentinel handle of a 64-bit target. -/
def gVmbHandle : VmbHandle := 0x1000000000000001

/-- `VmbAccessModeFull`. -/
def vmbAccessModeFull : UInt32 := 1

/-- The C functions the adapter gives to the SDK. -/
inductive Trampoline where
  | frameCallbackTrampoline
  | discoveryTrampoline
  deriving DecidableEq

/-- The fields of `VmbCameraInfo_t` the adapter reads; `none` is a null pointer. -/
structure VmbCameraInfo where
  cameraIdString : Option CString := none
  cameraName : Option CString := none
  modelName : Option CString := none
  serialString : Option CString := none
  deriving DecidableEq

/-- `mem::zeroed::<VmbCameraInfo_t>()`. -/
def VmbCameraInfo.zeroed : VmbCameraInfo := {}

/-- One call of a VmbC function. -/
inductive SdkCall where
  | vmbStartup
  | vmbShutdown
  | vmbCamerasList (listLength : UInt32)
  | vmbCameraOpen (idString : CString) (accessMode : UInt32)
  | vmbCameraClose (handle : VmbHandle)
  | vmbSettingsLoad (handle : VmbHandle) (filePath : CString)
  | vmbFeatureCommandRun (handle : VmbHandle) (name : CString)
  | vmbPayloadSizeGet (handle : VmbHandle)
  | vmbFrameAnnounce (handle : VmbHandle) (frame : Nat)
  | vmbFrameRevokeAll (handle : VmbHandle)
  | vmbCaptureStart (handle : VmbHandle)
  | vmbCaptureEnd (handle : VmbHandle)
  | vmbCaptureQueueFlush (handle : VmbHandle)
  | vmbCaptureFrameQueue (handle : VmbHandle) (frame : Nat) (callback : Trampoline)
  | vmbFeatureInvalidationRegister (handle : VmbHandle) (name : CString) (callback : Trampoline)
      (userContext : Nat)
  | vmbFeatureInvalidationUnregister (handle : VmbHandle) (name : CString) (callback : Trampoline)
  | vmbFeatureStringGet (handle : VmbHandle) (name : CString) (bufferSize : UInt32)
  | vmbFeatureEnumGet (handle : VmbHandle) (name : CString)
  deriving DecidableEq

/-- The answer of `VmbCamerasList`: the return code, the reported count, and the entries written to
the start of the buffer. -/
structure CamerasListAnswer where
  rc : Int32
  numFound : UInt32
  filled : List VmbCameraInfo

/-- The answer of `VmbFeatureStringGet`: the return code, the bytes written to the start of the
buffer, and the reported size. -/
structure StringGetAnswer where
  rc : Int32
  buffer : List UInt8
  sizeFilled : UInt32

/-- Return codes and out-parameters. -/
@[reducible] def SdkCall.Resp : SdkCall → Type
  | .vmbShutdown => Unit
  | .vmbCamerasList _ => CamerasListAnswer
  | .vmbCameraOpen _ _ => Int32 × VmbHandle
  | .vmbPayloadSizeGet _ => Int32 × UInt32
  | .vmbFeatureStringGet _ _ _ => StringGetAnswer
  | .vmbFeatureEnumGet _ _ => Int32 × Option CString
  | _ => Int32

/-- `libVmbC` as a signature. -/
@[reducible] def VmbC : Signature := ⟨SdkCall, SdkCall.Resp⟩

/-- Code that calls the SDK. -/
abbrev SdkM (α : Type) := Prog VmbC α

/-- Call a VmbC function. -/
def vmb (c : SdkCall) : SdkM c.Resp := Prog.call (S := VmbC) c Prog.done

/-- Any behaviour of the SDK, with state `τ`. -/
abbrev VmbApi (τ : Type) := Machine VmbC τ

@[simp] theorem vmb_bind {α : Type} (c : SdkCall) (f : c.Resp → SdkM α) :
    (vmb c >>= f) = Prog.call (S := VmbC) c f := rfl

@[simp] theorem run_vmb {τ : Type} (api : VmbApi τ) (c : SdkCall) (t : τ) :
    (vmb c).run api t = api t c := rfl

theorem run_vmb_bind {τ α : Type} (api : VmbApi τ) (c : SdkCall) (f : c.Resp → SdkM α) (t : τ) :
    (vmb c >>= f).run api t = (f (api t c).1).run api (api t c).2 := rfl

theorem runs_vmb_bind {α : Type} {c : SdkCall} {f : c.Resp → SdkM α} {t : List (Event VmbC)} {b : α} :
    (vmb c >>= f).Runs t b ↔ ∃ (r : c.Resp) (t' : _), t = ⟨c, r⟩ :: t' ∧ (f r).Runs t' b := Iff.rfl

/-- An SDK in which every call succeeds and every open returns a new raw handle; the state is the
next handle. It has no cameras to list and no features to read. -/
def mockApi : VmbApi Nat := fun n c =>
  match c with
  | .vmbShutdown => ((), n)
  | .vmbCamerasList _ => (⟨0, 0, []⟩, n)
  | .vmbCameraOpen _ _ => ((0, n), n + 1)
  | .vmbPayloadSizeGet _ => ((0, 1024), n)
  | .vmbFeatureStringGet _ _ _ => (⟨0, [], 0⟩, n)
  | .vmbFeatureEnumGet _ _ => ((0, none), n)
  | .vmbStartup => ((0 : Int32), n)
  | .vmbCameraClose _ => ((0 : Int32), n)
  | .vmbSettingsLoad _ _ => ((0 : Int32), n)
  | .vmbFeatureCommandRun _ _ => ((0 : Int32), n)
  | .vmbFrameAnnounce _ _ => ((0 : Int32), n)
  | .vmbFrameRevokeAll _ => ((0 : Int32), n)
  | .vmbCaptureStart _ => ((0 : Int32), n)
  | .vmbCaptureEnd _ => ((0 : Int32), n)
  | .vmbCaptureQueueFlush _ => ((0 : Int32), n)
  | .vmbCaptureFrameQueue _ _ _ => ((0 : Int32), n)
  | .vmbFeatureInvalidationRegister _ _ _ _ => ((0 : Int32), n)
  | .vmbFeatureInvalidationUnregister _ _ _ => ((0 : Int32), n)

end Vmb.Sdk

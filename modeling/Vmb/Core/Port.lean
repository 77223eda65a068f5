/-
# Vmb.Core.Port -- the `VmbRuntime` port

`VmbRuntime` is the only trait the domain layer calls through. Its methods are the calls of a
signature, each with the type of its result, and the domain layer is a set of programs over that
signature; `vmb-ffi` and `vmb-fake` are two machines for it. User closures cross the port through
`installFrameCallback` and `installDiscoveryCallback`, which hand back identifiers.
-/
import Vmb.Lib.Contract
import Vmb.Core.Types

namespace Vmb.Core

open Vmb.Lib

/-- One call of a `VmbRuntime` method. -/
inductive PortCall where
  -- Lifecycle
  | startup
  | shutdown
  -- Cameras
  | listCameras
  | openCamera (id : String)
  | closeCamera (h : CameraHandle)
  | loadSettings (h : CameraHandle) (path : Path)
  | runFeatureCommand (h : CameraHandle) (name : String)
  -- Capture
  | payloadSize (h : CameraHandle)
  | announceFrame (h : CameraHandle) (size : UInt32)
  | captureStart (h : CameraHandle)
  | queueFrame (h : CameraHandle) (slot : FrameSlotId) (cb : FrameCallbackId)
  | captureEnd (h : CameraHandle)
  | captureQueueFlush (h : CameraHandle)
  | frameRevokeAll (h : CameraHandle)
  -- Discovery
  | registerDiscovery (cb : DiscoveryCallbackId)
  | unregisterDiscovery (r : DiscoveryRegistrationHandle)
  -- Callback installation
  | installFrameCallback (cb : FrameCallback)
  | uninstallFrameCallback (id : FrameCallbackId)
  | installDiscoveryCallback (cb : DiscoveryCallback)
  | uninstallDiscoveryCallback (id : DiscoveryCallbackId)
  deriving DecidableEq

/-- What a port method hands back. `open_camera` is the one method whose adapters can panic (when
the identifier counter has wrapped to zero). -/
@[reducible] def PortCall.Resp : PortCall → Type
  | .startup => Result Unit
  | .shutdown => Unit
  | .listCameras => Result (List CameraInfo)
  | .openCamera _ => Exit (Result CameraHandle)
  | .closeCamera _ => Unit
  | .loadSettings _ _ => Result Unit
  | .runFeatureCommand _ _ => Result Unit
  | .payloadSize _ => Result UInt32
  | .announceFrame _ _ => Result FrameSlotId
  | .captureStart _ => Result Unit
  | .queueFrame _ _ _ => Result Unit
  | .captureEnd _ => Unit
  | .captureQueueFlush _ => Unit
  | .frameRevokeAll _ => Unit
  | .registerDiscovery _ => Result DiscoveryRegistrationHandle
  | .unregisterDiscovery _ => Unit
  | .installFrameCallback _ => FrameCallbackId
  | .uninstallFrameCallback _ => Unit
  | .installDiscoveryCallback _ => DiscoveryCallbackId
  | .uninstallDiscoveryCallback _ => Unit

/-- The answer of a call that fails with `e`. -/
def Fails (e : VmbError) : (c : PortCall) → c.Resp → Prop
  | .startup, r => r = .error e
  | .listCameras, r => r = .error e
  | .openCamera _, r => r = .returned (.error e)
  | .loadSettings _ _, r => r = .error e
  | .runFeatureCommand _ _, r => r = .error e
  | .payloadSize _, r => r = .error e
  | .announceFrame _ _, r => r = .error e
  | .captureStart _, r => r = .error e
  | .queueFrame _ _ _, r => r = .error e
  | .registerDiscovery _, r => r = .error e
  | _, _ => False

/-- The `VmbRuntime` trait as a signature. -/
@[reducible] def Port : Signature := ⟨PortCall, PortCall.Resp⟩

/-- Domain code: a program over the port. -/
abbrev PortM (α : Type) := Prog Port α

/-- Call a method of the runtime. -/
def port (c : PortCall) : PortM c.Resp := Prog.call (S := Port) c Prog.done

/-- Any implementation of the trait, with state `σ`. -/
abbrev VmbRuntime (σ : Type) := Machine Port σ

variable {α β ν σ : Type}

@[simp] theorem port_bind (c : PortCall) (f : c.Resp → PortM α) :
    (port c >>= f) = Prog.call (S := Port) c f := rfl

@[simp] theorem run_port (m : VmbRuntime σ) (c : PortCall) (s : σ) : (port c).run m s = m s c := rfl

theorem runs_port_bind {c : PortCall} {f : c.Resp → PortM α} {t : List (Event Port)} {b : α} :
    (port c >>= f).Runs t b ↔ ∃ (r : c.Resp) (t' : _), t = ⟨c, r⟩ :: t' ∧ (f r).Runs t' b := Iff.rfl

@[simp] theorem meets_port (C : Contract Port ν) (c : PortCall) (Q : c.Resp → ν → Prop) (v : ν) :
    (port c).Meets C Q v ↔ C.pre v c ∧ ∀ r, Q r (C.next v c r) := Iff.rfl

@[simp] theorem meets_port_bind (C : Contract Port ν) (c : PortCall) (f : c.Resp → PortM α)
    (Q : α → ν → Prop) (v : ν) :
    (port c >>= f).Meets C Q v ↔ C.pre v c ∧ ∀ r, (f r).Meets C Q (C.next v c r) := Iff.rfl

end Vmb.Core

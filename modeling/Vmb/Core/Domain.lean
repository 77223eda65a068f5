/-
# Vmb.Core.Domain -- `VmbSystem`, `Camera` and `DiscoveryRegistration`

The three RAII types of `vmb-core`, as programs over the port. Each Rust method is one program; a
method that takes `&mut self` hands back the changed object. The shared `Arc<R>` is the machine the
programs are run on, so it is not a field.
-/
import Vmb.Core.Port

namespace Vmb.Core

open Vmb.Lib

/-! ## `Camera` -/

def featureAcquisitionStart : String := "AcquisitionStart"
def featureAcquisitionStop : String := "AcquisitionStop"

/-- An in-progress capture session: the announced slots and the installed callback. -/
structure CaptureSession where
  callbackId : FrameCallbackId
  slots : List FrameSlotId
  deriving DecidableEq

/-- An open camera. -/
structure Camera where
  handle : CameraHandle
  id : String
  session : Option CaptureSession
  deriving DecidableEq

namespace Camera

/-- `Camera::open`. A panic of the adapter unwinds through it. -/
def «open» (id : String) : PortM (Exit (Result Camera)) := do
  match ← port (.openCamera id) with
  | .panicked m => pure (.panicked m)
  | .returned (.error e) => pure (.returned (.error e))
  | .returned (.ok handle) => pure (.returned (.ok ⟨handle, id, none⟩))

/-- `Camera::load_settings`. -/
def loadSettings (cam : Camera) (path : Path) : PortM (Result Unit) :=
  port (.loadSettings cam.handle path)

/-- `for _ in 0..num_buffers { let slot = announce_frame(..)?; slots.push(slot); }`. -/
def announceFrames (h : CameraHandle) (payload : UInt32) :
    Nat → List FrameSlotId → PortM (Result (List FrameSlotId))
  | 0, slots => pure (.ok slots)
  | n + 1, slots => do
    match ← port (.announceFrame h payload) with
    | .error e => pure (.error e)
    | .ok slot => announceFrames h payload n (slots ++ [slot])

/-- `for slot in &slots { queue_frame(.., *slot, callback_id)?; }`. -/
def queueFrames (h : CameraHandle) (callbackId : FrameCallbackId) :
    List FrameSlotId → PortM (Result Unit)
  | [] => pure (.ok ())
  | slot :: slots => do
    match ← port (.queueFrame h slot callbackId) with
    | .error e => pure (.error e)
    | .ok () => queueFrames h callbackId slots

/-- The immediately-called closure of `start_capture`: announce, start, queue, acquire. -/
def primeCapture (h : CameraHandle) (payload : UInt32) (callbackId : FrameCallbackId)
    (numBuffers : Nat) (slots : List FrameSlotId) : PortM (Result (List FrameSlotId)) := do
  match ← announceFrames h payload numBuffers slots with
  | .error e => pure (.error e)
  | .ok slots => do
    match ← port (.captureStart h) with
    | .error e => pure (.error e)
    | .ok () => do
      match ← queueFrames h callbackId slots with
      | .error e => pure (.error e)
      | .ok () => do
        match ← port (.runFeatureCommand h featureAcquisitionStart) with
        | .error e => pure (.error e)
        | .ok () => pure (.ok slots)

/-- The calls both teardown paths end with. -/
def unwind (h : CameraHandle) (callbackId : FrameCallbackId) : PortM Unit := do
  port (.captureEnd h)
  port (.captureQueueFlush h)
  port (.frameRevokeAll h)
  port (.uninstallFrameCallback callbackId)

/-- `Camera::start_capture`. The slot vector is allocated after the callback is installed. -/
def startCapture (cam : Camera) (numBuffers : Nat) (callback : FrameCallback) :
    PortM (Exit (Result Unit) × Camera) :=
  match cam.session with
  | some _ => pure (.returned (.error .captureAlreadyRunning), cam)
  | none => do
    match ← port (.payloadSize cam.handle) with
    | .error e => pure (.returned (.error e), cam)
    | .ok payload => do
      let callbackId ← port (.installFrameCallback callback)
      -- a capacity overflow unwinds past the teardown below, with the callback installed
      match withCapacity numBuffers with
      | .panicked m => pure (.panicked m, cam)
      | .returned slots => do
        match ← primeCapture cam.handle payload callbackId numBuffers slots with
        | .ok slots =>
          pure (.returned (.ok ()), { cam with session := some ⟨callbackId, slots⟩ })
        | .error e => do
          -- all of it, whichever step failed: what was not reached is a no-op
          unwind cam.handle callbackId
          pure (.returned (.error e), cam)

/-- `Camera::stop_capture`. The result of `AcquisitionStop` is swallowed. -/
def stopCapture (cam : Camera) : PortM (Result Unit × Camera) :=
  match cam.session with
  | none => pure (.ok (), cam)
  | some session => do
    let _ ← port (.runFeatureCommand cam.handle featureAcquisitionStop)
    unwind cam.handle session.callbackId
    pure (.ok (), { cam with session := none })

/-- `Drop for Camera`. -/
def drop (cam : Camera) : PortM Unit :=
  match cam.session with
  | none => port (.closeCamera cam.handle)
  | some _ => do
    let (_, cam) ← stopCapture cam
    port (.closeCamera cam.handle)

end Camera

/-! ## `DiscoveryRegistration` -/

/-- A live camera-discovery registration. -/
structure DiscoveryRegistration where
  handle : Option DiscoveryRegistrationHandle
  callbackId : Option DiscoveryCallbackId
  deriving DecidableEq

/-- `register_camera_discovery`. -/
def registerCameraDiscovery (callback : DiscoveryCallback) :
    PortM (Result DiscoveryRegistration) := do
  let callbackId ← port (.installDiscoveryCallback callback)
  match ← port (.registerDiscovery callbackId) with
  | .ok handle => pure (.ok ⟨some handle, some callbackId⟩)
  | .error e => do
    -- there is no registration whose drop would uninstall the closure
    port (.uninstallDiscoveryCallback callbackId)
    pure (.error e)

/-- `Drop for DiscoveryRegistration`. -/
def DiscoveryRegistration.drop (reg : DiscoveryRegistration) : PortM Unit := do
  match reg.handle with
  | some h => port (.unregisterDiscovery h)
  | none => pure ()
  match reg.callbackId with
  | some id => port (.uninstallDiscoveryCallback id)
  | none => pure ()

/-! ## `VmbSystem` -/

namespace VmbSystem

/-- `VmbSystem::startup`: on `Ok` the caller owns a system. -/
def startup : PortM (Result Unit) := port .startup

/-- `Drop for VmbSystem`. -/
def drop : PortM Unit := port .shutdown

/-- `VmbSystem::list_cameras`. -/
def listCameras : PortM (Result (List CameraInfo)) := port .listCameras

/-- `VmbSystem::open_camera`. -/
def openCamera (id : String) : PortM (Exit (Result Camera)) := Camera.open id

/-- `VmbSystem::register_discovery`. -/
def registerDiscovery (callback : DiscoveryCallback) : PortM (Result DiscoveryRegistration) :=
  registerCameraDiscovery callback

end VmbSystem

end Vmb.Core

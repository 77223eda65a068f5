/-
# Vmb.Ffi.Runtime -- `impl VmbRuntime for VmbFfiRuntime`

Every port method of the production adapter, as a program over the SDK functions that carries
`FfiState` along. `vmbFfiRuntime api` is the adapter over the SDK `api`: a machine for the port.

`startup` and `shutdown` are written one level lower, over the atomic steps on `STARTED`, because
several threads may be inside them at once. `sequentially` runs these steps back to back.
-/
import Vmb.Ffi.Trampoline

namespace Vmb.Ffi

open Vmb.Lib Vmb.Core Vmb.Sdk

/-! ## Lifecycle -/

/-- An atomic step of `startup` and `shutdown`: an operation on `STARTED` or an SDK call. -/
inductive LifecycleStep where
  /-- `STARTED.compare_exchange(false, true)`; the answer says whether it exchanged. -/
  | compareExchange
  /-- `STARTED.store(false)`. -/
  | store
  /-- `STARTED.swap(false)`; the answer is the old value. -/
  | swap
  | vmbStartup
  | vmbShutdown
  deriving DecidableEq

@[reducible] def LifecycleStep.Resp : LifecycleStep → Type
  | .compareExchange => Bool
  | .store => Unit
  | .swap => Bool
  | .vmbStartup => Int32
  | .vmbShutdown => Unit

@[reducible] def Lifecycle : Signature := ⟨LifecycleStep, LifecycleStep.Resp⟩

/-- Perform an atomic step. -/
def atomic (c : LifecycleStep) : Prog Lifecycle c.Resp := Prog.call (S := Lifecycle) c Prog.done

@[simp] theorem atomic_bind {α : Type} (c : LifecycleStep) (f : c.Resp → Prog Lifecycle α) :
    (atomic c >>= f) = Prog.call (S := Lifecycle) c f := rfl

/-- `VmbFfiRuntime::startup`. -/
def startup : Prog Lifecycle (Result Unit) := do
  let exchanged ← atomic .compareExchange
  if exchanged then
    let rc ← atomic .vmbStartup
    match check rc with
    | .error e =>
      -- a refused start gives the flag back, so that a later one can try again
      atomic .store
      pure (.error e)
    | .ok () => pure (.ok ())
  else
    pure (.error .alreadyStarted)

/-- `VmbFfiRuntime::shutdown`. -/
def shutdown : Prog Lifecycle Unit := do
  let started ← atomic .swap
  if started then
    -- only the thread that took the flag away shuts the SDK down
    atomic .vmbShutdown
  else
    pure ()

namespace FfiState

/-- Run the atomic steps of one thread back to back. -/
def sequentially {α : Type} : Prog Lifecycle α → FfiState → SdkM (α × FfiState)
  | .done a, s => pure (a, s)
  | .call .compareExchange k, s =>
    if s.started then sequentially (k false) s
    else sequentially (k true) { s with started := true }
  | .call .store k, s => sequentially (k ()) { s with started := false }
  | .call .swap k, s => sequentially (k s.started) { s with started := false }
  | .call .vmbStartup k, s => do
    let rc ← vmb .vmbStartup
    sequentially (k rc) s
  | .call .vmbShutdown k, s => do
    vmb .vmbShutdown
    sequentially (k ()) s

/-! ## Cameras -/

/-- One entry of `list_cameras`. -/
def cameraInfo (raw : VmbCameraInfo) : CameraInfo where
  id := cstrToOwned raw.cameraIdString "<unknown>"
  model := cstrToOwned raw.modelName "<unknown>"
  serial := cstrToOwned raw.serialString "<unknown>"
  name := cstrToOwned raw.cameraName "<unknown>"

/-- `VmbFfiRuntime::list_cameras`: the size query and the populating call. -/
def listCameras (s : FfiState) : SdkM (Result (List CameraInfo) × FfiState) := do
  let query ← vmb (.vmbCamerasList 0)
  match check query.rc with
  | .error e => pure (.error e, s)
  | .ok () =>
    if query.numFound = 0 then
      pure (.ok [], s)
    else do
      -- slots the SDK does not write stay zeroed
      let buf := List.replicate query.numFound.toNat VmbCameraInfo.zeroed
      let answer ← vmb (.vmbCamerasList query.numFound)
      match check answer.rc with
      | .error e => pure (.error e, s)
      | .ok () =>
        pure (.ok (((writtenTo buf answer.filled).take answer.numFound.toNat).map cameraInfo), s)

/-- `VmbFfiRuntime::open_camera`. -/
def openCamera (s : FfiState) (id : String) : SdkM (Exit (Result CameraHandle) × FfiState) :=
  match CString.new (bytes id) with
  | none => pure (.returned (.error (.invalidString "camera_id")), s)
  | some cId => do
    let (rc, handle) ← vmb (.vmbCameraOpen cId vmbAccessModeFull)
    match check rc with
    | .error e => pure (.returned (.error e), s)
    | .ok () =>
      -- the SDK has opened the camera by now, and a panic leaves it open
      match s.nextId with
      | (.panicked m, s) => pure (.panicked m, s)
      | (.returned id, s) =>
        pure (.returned (.ok ⟨id⟩), { s with cameras := s.cameras.insert ⟨id⟩ handle })

/-- `VmbFfiRuntime::close_camera`. -/
def closeCamera (s : FfiState) (h : CameraHandle) : SdkM (Unit × FfiState) :=
  match s.cameras.lookup h with
  | none => pure ((), s)
  | some raw => do
    -- the entry goes first, whatever the SDK will answer
    let s := { s with cameras := s.cameras.erase h }
    let _ ← vmb (.vmbCameraClose raw)
    pure ((), s)

/-- `VmbFfiRuntime::resolve_camera`. -/
def resolveCamera (s : FfiState) (h : CameraHandle) : Result VmbHandle :=
  match s.cameras.lookup h with
  | none => .error (.invalidString "unknown camera handle")
  | some raw => .ok raw

/-- `VmbFfiRuntime::load_settings`: the path goes to the SDK after lossy decoding. -/
def loadSettings (s : FfiState) (h : CameraHandle) (path : Path) : SdkM (Result Unit × FfiState) :=
  match s.resolveCamera h with
  | .error e => pure (.error e, s)
  | .ok raw =>
    match CString.new (lossy path) with
    | none => pure (.error (.invalidString "settings_xml path"), s)
    | some cPath => do
      let rc ← vmb (.vmbSettingsLoad raw cPath)
      pure (check rc, s)

/-- `VmbFfiRuntime::run_feature_command`. -/
def runFeatureCommand (s : FfiState) (h : CameraHandle) (name : String) :
    SdkM (Result Unit × FfiState) :=
  match s.resolveCamera h with
  | .error e => pure (.error e, s)
  | .ok raw =>
    match CString.new (bytes name) with
    | none => pure (.error (.invalidString "feature_command"), s)
    | some cmd => do
      let rc ← vmb (.vmbFeatureCommandRun raw cmd)
      pure (check rc, s)

/-! ## Capture -/

/-- `VmbFfiRuntime::payload_size`. -/
def payloadSize (s : FfiState) (h : CameraHandle) : SdkM (Result UInt32 × FfiState) :=
  match s.resolveCamera h with
  | .error e => pure (.error e, s)
  | .ok raw => do
    let (rc, payload) ← vmb (.vmbPayloadSizeGet raw)
    match check rc with
    | .error e => pure (.error e, s)
    | .ok () => pure (.ok payload, s)

/-- `VmbFfiRuntime::announce_frame`. A refused context is freed on return. -/
def announceFrame (s : FfiState) (h : CameraHandle) (size : UInt32) :
    SdkM (Result FrameSlotId × FfiState) :=
  match s.resolveCamera h with
  | .error e => pure (.error e, s)
  | .ok raw => do
    let (ctx, s) := TrampolineContext.new s size
    let (framePtr, ctx) := ctx.vmbFrameMutPtr
    let rc ← vmb (.vmbFrameAnnounce raw framePtr)
    match check rc with
    | .error e => pure (.error e, s)
    | .ok () =>
      -- the table keeps the context alive from here on
      let (slot, s) := s.nextU64
      pure (.ok ⟨slot⟩, { s with frames := s.frames.insert ⟨slot⟩ ctx })

/-- `VmbFfiRuntime::capture_start`. -/
def captureStart (s : FfiState) (h : CameraHandle) : SdkM (Result Unit × FfiState) :=
  match s.resolveCamera h with
  | .error e => pure (.error e, s)
  | .ok raw => do
    let rc ← vmb (.vmbCaptureStart raw)
    pure (check rc, s)

/-- `VmbFfiRuntime::queue_frame`: the context keeps the closure even when the SDK refuses. -/
def queueFrame (s : FfiState) (h : CameraHandle) (slot : FrameSlotId) (cb : FrameCallbackId) :
    SdkM (Result Unit × FfiState) :=
  match s.resolveCamera h with
  | .error e => pure (.error e, s)
  | .ok raw =>
    match s.frameCallbacks.lookup cb with
    | none => pure (.error (.invalidString "unknown frame callback id"), s)
    | some callback =>
      match s.frames.lookup slot with
      | none => pure (.error (.invalidString "unknown frame slot id"), s)
      | some ctx => do
        -- replaces the no-op closure of announce time, before the SDK can complete the frame
        let (framePtr, ctx) := (ctx.setCallback callback).vmbFrameMutPtr
        let s := { s with frames := s.frames.insert slot ctx }
        let rc ← vmb (.vmbCaptureFrameQueue raw framePtr .frameCallbackTrampoline)
        pure (check rc, s)

/-- `VmbFfiRuntime::capture_end`. -/
def captureEnd (s : FfiState) (h : CameraHandle) : SdkM (Unit × FfiState) :=
  match s.resolveCamera h with
  | .error _ => pure ((), s)
  | .ok raw => do
    let _ ← vmb (.vmbCaptureEnd raw)
    pure ((), s)

/-- `VmbFfiRuntime::capture_queue_flush`. -/
def captureQueueFlush (s : FfiState) (h : CameraHandle) : SdkM (Unit × FfiState) :=
  match s.resolveCamera h with
  | .error _ => pure ((), s)
  | .ok raw => do
    let _ ← vmb (.vmbCaptureQueueFlush raw)
    pure ((), s)

/-- `VmbFfiRuntime::frame_revoke_all`: the SDK revokes the frames of one camera, and the table of
all cameras is cleared. -/
def frameRevokeAll (s : FfiState) (h : CameraHandle) : SdkM (Unit × FfiState) :=
  match s.resolveCamera h with
  | .error _ => pure ((), s)
  | .ok raw => do
    let _ ← vmb (.vmbFrameRevokeAll raw)
    pure ((), { s with frames := ∅ })

/-! ## Discovery -/

/-- `FEATURE_EVENT_CAMERA_DISCOVERY`. -/
def featureEventCameraDiscovery : String := "EventCameraDiscovery"

/-- `VmbFfiRuntime::register_discovery`. -/
def registerDiscovery (s : FfiState) (cb : DiscoveryCallbackId) :
    SdkM (Result DiscoveryRegistrationHandle × FfiState) :=
  match s.discoveryCallbacks.lookup cb with
  | none => pure (.error (.invalidString "unknown discovery callback id"), s)
  | some callback =>
    match CString.new (bytes featureEventCameraDiscovery) with
    | none => pure (.error (.invalidString featureEventCameraDiscovery), s)
    | some feature => do
      let (ctxPtr, s) := s.intoRaw ⟨callback⟩
      let rc ← vmb (.vmbFeatureInvalidationRegister gVmbHandle feature .discoveryTrampoline ctxPtr)
      match check rc with
      -- the SDK has not taken the pointer, so the box is reclaimed
      | .error e => pure (.error e, s.fromRaw ctxPtr)
      | .ok () =>
        let (handle, s) := s.nextU64
        pure (.ok ⟨handle⟩,
          { s with discoveryRegs := s.discoveryRegs.insert ⟨handle⟩ ⟨ctxPtr, feature⟩ })

/-- `VmbFfiRuntime::unregister_discovery`: the context is reclaimed whatever the SDK returns. -/
def unregisterDiscovery (s : FfiState) (r : DiscoveryRegistrationHandle) : SdkM (Unit × FfiState) :=
  match s.discoveryRegs.lookup r with
  | none => pure ((), s)
  | some reg => do
    let s := { s with discoveryRegs := s.discoveryRegs.erase r }
    let _ ← vmb (.vmbFeatureInvalidationUnregister gVmbHandle reg.feature .discoveryTrampoline)
    pure ((), s.fromRaw reg.ctxPtr)

/-! ## Callback installation -/

/-- `VmbFfiRuntime::install_frame_callback`. -/
def installFrameCallback (s : FfiState) (cb : FrameCallback) : FrameCallbackId × FfiState :=
  let (id, s) := s.nextU64
  (⟨id⟩, { s with frameCallbacks := s.frameCallbacks.insert ⟨id⟩ cb })

/-- `VmbFfiRuntime::uninstall_frame_callback`. -/
def uninstallFrameCallback (s : FfiState) (id : FrameCallbackId) : FfiState :=
  { s with frameCallbacks := s.frameCallbacks.erase id }

/-- `VmbFfiRuntime::install_discovery_callback`. -/
def installDiscoveryCallback (s : FfiState) (cb : DiscoveryCallback) :
    DiscoveryCallbackId × FfiState :=
  let (id, s) := s.nextU64
  (⟨id⟩, { s with discoveryCallbacks := s.discoveryCallbacks.insert ⟨id⟩ cb })

/-- `VmbFfiRuntime::uninstall_discovery_callback`. -/
def uninstallDiscoveryCallback (s : FfiState) (id : DiscoveryCallbackId) : FfiState :=
  { s with discoveryCallbacks := s.discoveryCallbacks.erase id }

/-! ## The adapter -/

/-- The method behind a port call. -/
def dispatch (s : FfiState) : (c : PortCall) → SdkM (c.Resp × FfiState)
  | .startup => sequentially Ffi.startup s
  | .shutdown => sequentially Ffi.shutdown s
  | .listCameras => s.listCameras
  | .openCamera id => s.openCamera id
  | .closeCamera h => s.closeCamera h
  | .loadSettings h path => s.loadSettings h path
  | .runFeatureCommand h name => s.runFeatureCommand h name
  | .payloadSize h => s.payloadSize h
  | .announceFrame h size => s.announceFrame h size
  | .captureStart h => s.captureStart h
  | .queueFrame h slot cb => s.queueFrame h slot cb
  | .captureEnd h => s.captureEnd h
  | .captureQueueFlush h => s.captureQueueFlush h
  | .frameRevokeAll h => s.frameRevokeAll h
  | .registerDiscovery cb => s.registerDiscovery cb
  | .unregisterDiscovery r => s.unregisterDiscovery r
  | .installFrameCallback cb => pure (s.installFrameCallback cb)
  | .uninstallFrameCallback id => pure ((), s.uninstallFrameCallback id)
  | .installDiscoveryCallback cb => pure (s.installDiscoveryCallback cb)
  | .uninstallDiscoveryCallback id => pure ((), s.uninstallDiscoveryCallback id)

end FfiState

/-- `VmbFfiRuntime` over the SDK `api`. -/
def vmbFfiRuntime {τ : Type} (api : VmbApi τ) : VmbRuntime (FfiState × τ) := fun s c =>
  let r := (s.1.dispatch c).run api s.2
  (r.1.1, (r.1.2, r.2))

end Vmb.Ffi

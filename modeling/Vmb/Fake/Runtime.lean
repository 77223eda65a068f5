/-
# Vmb.Fake.Runtime -- `FakeVmbRuntime`

The programmable in-memory runtime for tests. It records every port call, fails the calls it was
rigged to fail, and keeps its tables by identifier; unlike the production adapter it never looks an
identifier up before it accepts it.
-/
import Vmb.Core.Port
import Vmb.Lib.Tracks

namespace Vmb.Fake

open Vmb.Lib Vmb.Core

/-- One recorded port-method invocation. -/
inductive FakeCall where
  | startup
  | shutdown
  | listCameras
  | openCamera (id : String)
  | closeCamera (h : CameraHandle)
  | loadSettings (h : CameraHandle) (path : Path)
  | runFeatureCommand (h : CameraHandle) (name : String)
  | payloadSize (h : CameraHandle)
  | announceFrame (h : CameraHandle) (size : UInt32)
  | captureStart (h : CameraHandle)
  | queueFrame (h : CameraHandle) (slot : FrameSlotId) (cb : FrameCallbackId)
  | captureEnd (h : CameraHandle)
  | captureQueueFlush (h : CameraHandle)
  | frameRevokeAll (h : CameraHandle)
  | registerDiscovery (cb : DiscoveryCallbackId)
  | unregisterDiscovery (r : DiscoveryRegistrationHandle)
  | installFrameCallback (id : FrameCallbackId)
  | uninstallFrameCallback (id : FrameCallbackId)
  | installDiscoveryCallback (id : DiscoveryCallbackId)
  | uninstallDiscoveryCallback (id : DiscoveryCallbackId)
  deriving DecidableEq

/-- The methods a caller can make fail. -/
inductive Method where
  | startup
  | listCameras
  | openCamera
  | loadSettings
  | runFeatureCommand
  | payloadSize
  | announceFrame
  | captureStart
  | queueFrame
  | registerDiscovery
  deriving DecidableEq

/-- Fake behavior configuration. `counters` counts the calls of each method; the counter of the
source holds it modulo `2^64`. -/
structure Config where
  failures : Finmap fun _ : Method × UInt64 => VmbError
  counters : Method → Nat
  cameraList : List CameraInfo
  payloadSize : UInt32

/-- `State`. `counter` counts the `fetch_add`s from 1. -/
structure FakeState where
  started : Bool
  config : Config
  calls : List FakeCall
  cameras : Finmap fun _ : CameraHandle => String
  announcedFrames : Finmap fun _ : FrameSlotId => CameraHandle
  activeCaptures : Finmap fun _ : CameraHandle => List (FrameSlotId × FrameCallbackId)
  frameCallbacks : Finmap fun _ : FrameCallbackId => FrameCallback
  discoveryCallbacks : Finmap fun _ : DiscoveryCallbackId => DiscoveryCallback
  discoveryRegs : Finmap fun _ : DiscoveryRegistrationHandle => DiscoveryCallbackId
  counter : Nat

namespace FakeState

/-- `FakeVmbRuntime::new`. -/
def new : FakeState where
  started := false
  config := ⟨∅, fun _ => 0, [], 1024⟩
  calls := []
  cameras := ∅
  announcedFrames := ∅
  activeCaptures := ∅
  frameCallbacks := ∅
  discoveryCallbacks := ∅
  discoveryRegs := ∅
  counter := 1

/-- A new fake with another configuration. -/
def configured (config : Config) : FakeState := { new with config := config }

/-- `fail_nth`. -/
def failNth (s : FakeState) (method : Method) (skip : UInt64) (err : VmbError) : FakeState :=
  { s with config := { s.config with failures := s.config.failures.insert (method, skip) err } }

/-- `set_payload_size`. -/
def setPayloadSize (s : FakeState) (size : UInt32) : FakeState :=
  { s with config := { s.config with payloadSize := size } }

/-- The value the counter holds. -/
def currentId (s : FakeState) : UInt64 := UInt64.ofNat s.counter

/-- `next_id`. -/
def nextId (s : FakeState) : Exit NonZeroU64 × FakeState :=
  (if h : s.currentId ≠ 0 then .returned ⟨s.currentId, h⟩ else .panicked "fake id counter exhausted",
    { s with counter := s.counter + 1 })

/-- `next_u64`. -/
def nextU64 (s : FakeState) : UInt64 × FakeState :=
  (s.currentId, { s with counter := s.counter + 1 })

/-- `record`. -/
def record (s : FakeState) (call : FakeCall) : FakeState := { s with calls := s.calls ++ [call] }

/-- The error the next call of `method` is rigged to fail with. -/
def rigged (s : FakeState) (method : Method) : Option VmbError :=
  s.config.failures.lookup (method, UInt64.ofNat (s.config.counters method))

/-- `maybe_fail`. -/
def maybeFail (s : FakeState) (method : Method) : Result Unit × FakeState :=
  let idx := UInt64.ofNat (s.config.counters method)
  let counters := Function.update s.config.counters method (s.config.counters method + 1)
  match s.config.failures.lookup (method, idx) with
  -- a rigged failure is consumed by the call it hits
  | some err =>
    (.error err, { s with config := { s.config with
      counters := counters, failures := s.config.failures.erase (method, idx) } })
  | none => (.ok (), { s with config := { s.config with counters := counters } })

/-- `map.entry(h).or_default()` with `slots` pushed. -/
def pushCapture (s : FakeState) (h : CameraHandle) (slots : List (FrameSlotId × FrameCallbackId)) :
    FakeState :=
  { s with activeCaptures :=
      s.activeCaptures.insert h ((s.activeCaptures.lookup h).getD [] ++ slots) }

/-! ## The port methods -/

/-- `startup`. -/
def startup (s : FakeState) : Result Unit × FakeState :=
  match (s.record .startup).maybeFail .startup with
  | (.error e, s) => (.error e, s)
  | (.ok (), s) =>
    -- a started fake still reports a rigged failure first
    if s.started then (.error .alreadyStarted, s) else (.ok (), { s with started := true })

/-- `shutdown`. -/
def shutdown (s : FakeState) : FakeState := { s.record .shutdown with started := false }

/-- `list_cameras`. -/
def listCameras (s : FakeState) : Result (List CameraInfo) × FakeState :=
  match (s.record .listCameras).maybeFail .listCameras with
  | (.error e, s) => (.error e, s)
  | (.ok (), s) => (.ok s.config.cameraList, s)

/-- `open_camera`. -/
def openCamera (s : FakeState) (id : String) : Exit (Result CameraHandle) × FakeState :=
  match (s.record (.openCamera id)).maybeFail .openCamera with
  | (.error e, s) => (.returned (.error e), s)
  | (.ok (), s) =>
    match s.nextId with
    | (.panicked m, s) => (.panicked m, s)
    | (.returned h, s) => (.returned (.ok ⟨h⟩), { s with cameras := s.cameras.insert ⟨h⟩ id })

/-- `close_camera`. -/
def closeCamera (s : FakeState) (h : CameraHandle) : FakeState :=
  { s.record (.closeCamera h) with
    cameras := s.cameras.erase h
    -- the announced frames of the camera stay in their table
    activeCaptures := s.activeCaptures.erase h }

/-- `load_settings`. -/
def loadSettings (s : FakeState) (h : CameraHandle) (path : Path) : Result Unit × FakeState :=
  (s.record (.loadSettings h path)).maybeFail .loadSettings

/-- `run_feature_command`. -/
def runFeatureCommand (s : FakeState) (h : CameraHandle) (name : String) :
    Result Unit × FakeState :=
  (s.record (.runFeatureCommand h name)).maybeFail .runFeatureCommand

/-- `payload_size`. -/
def payloadSize (s : FakeState) (h : CameraHandle) : Result UInt32 × FakeState :=
  match (s.record (.payloadSize h)).maybeFail .payloadSize with
  | (.error e, s) => (.error e, s)
  | (.ok (), s) => (.ok s.config.payloadSize, s)

/-- `announce_frame`. -/
def announceFrame (s : FakeState) (h : CameraHandle) (size : UInt32) :
    Result FrameSlotId × FakeState :=
  match (s.record (.announceFrame h size)).maybeFail .announceFrame with
  | (.error e, s) => (.error e, s)
  | (.ok (), s) =>
    let (slot, s) := s.nextU64
    (.ok ⟨slot⟩, { s with announcedFrames := s.announcedFrames.insert ⟨slot⟩ h })

/-- `capture_start`. -/
def captureStart (s : FakeState) (h : CameraHandle) : Result Unit × FakeState :=
  match (s.record (.captureStart h)).maybeFail .captureStart with
  | (.error e, s) => (.error e, s)
  | (.ok (), s) => (.ok (), s.pushCapture h [])

/-- `queue_frame`. -/
def queueFrame (s : FakeState) (h : CameraHandle) (slot : FrameSlotId) (cb : FrameCallbackId) :
    Result Unit × FakeState :=
  match (s.record (.queueFrame h slot cb)).maybeFail .queueFrame with
  | (.error e, s) => (.error e, s)
  -- neither the slot nor the callback is looked up
  | (.ok (), s) => (.ok (), s.pushCapture h [(slot, cb)])

/-- `capture_end`. -/
def captureEnd (s : FakeState) (h : CameraHandle) : FakeState :=
  { s.record (.captureEnd h) with activeCaptures := s.activeCaptures.erase h }

/-- `capture_queue_flush`. -/
def captureQueueFlush (s : FakeState) (h : CameraHandle) : FakeState :=
  s.record (.captureQueueFlush h)

/-- `frame_revoke_all`. -/
def frameRevokeAll (s : FakeState) (h : CameraHandle) : FakeState :=
  { s.record (.frameRevokeAll h) with
    announcedFrames := retain (fun owner => owner ≠ h) s.announcedFrames }

/-- `register_discovery`. -/
def registerDiscovery (s : FakeState) (cb : DiscoveryCallbackId) :
    Result DiscoveryRegistrationHandle × FakeState :=
  match (s.record (.registerDiscovery cb)).maybeFail .registerDiscovery with
  | (.error e, s) => (.error e, s)
  | (.ok (), s) =>
    let (h, s) := s.nextU64
    (.ok ⟨h⟩, { s with discoveryRegs := s.discoveryRegs.insert ⟨h⟩ cb })

/-- `unregister_discovery`. -/
def unregisterDiscovery (s : FakeState) (r : DiscoveryRegistrationHandle) : FakeState :=
  { s.record (.unregisterDiscovery r) with discoveryRegs := s.discoveryRegs.erase r }

/-- `install_frame_callback`. -/
def installFrameCallback (s : FakeState) (cb : FrameCallback) : FrameCallbackId × FakeState :=
  let (id, s) := s.nextU64
  (⟨id⟩, { s.record (.installFrameCallback ⟨id⟩) with
    frameCallbacks := s.frameCallbacks.insert ⟨id⟩ cb })

/-- `uninstall_frame_callback`. -/
def uninstallFrameCallback (s : FakeState) (id : FrameCallbackId) : FakeState :=
  { s.record (.uninstallFrameCallback id) with frameCallbacks := s.frameCallbacks.erase id }

/-- `install_discovery_callback`. -/
def installDiscoveryCallback (s : FakeState) (cb : DiscoveryCallback) :
    DiscoveryCallbackId × FakeState :=
  let (id, s) := s.nextU64
  (⟨id⟩, { s.record (.installDiscoveryCallback ⟨id⟩) with
    discoveryCallbacks := s.discoveryCallbacks.insert ⟨id⟩ cb })

/-- `uninstall_discovery_callback`. -/
def uninstallDiscoveryCallback (s : FakeState) (id : DiscoveryCallbackId) : FakeState :=
  { s.record (.uninstallDiscoveryCallback id) with
    discoveryCallbacks := s.discoveryCallbacks.erase id }

end FakeState

/-- `FakeVmbRuntime`. -/
def fakeVmbRuntime : VmbRuntime FakeState := fun s c =>
  match c with
  | .startup => s.startup
  | .shutdown => ((), s.shutdown)
  | .listCameras => s.listCameras
  | .openCamera id => s.openCamera id
  | .closeCamera h => ((), s.closeCamera h)
  | .loadSettings h path => s.loadSettings h path
  | .runFeatureCommand h name => s.runFeatureCommand h name
  | .payloadSize h => s.payloadSize h
  | .announceFrame h size => s.announceFrame h size
  | .captureStart h => s.captureStart h
  | .queueFrame h slot cb => s.queueFrame h slot cb
  | .captureEnd h => ((), s.captureEnd h)
  | .captureQueueFlush h => ((), s.captureQueueFlush h)
  | .frameRevokeAll h => ((), s.frameRevokeAll h)
  | .registerDiscovery cb => s.registerDiscovery cb
  | .unregisterDiscovery r => ((), s.unregisterDiscovery r)
  | .installFrameCallback cb => s.installFrameCallback cb
  | .uninstallFrameCallback id => ((), s.uninstallFrameCallback id)
  | .installDiscoveryCallback cb => s.installDiscoveryCallback cb
  | .uninstallDiscoveryCallback id => ((), s.uninstallDiscoveryCallback id)

end Vmb.Fake

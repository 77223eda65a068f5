/-
# Vmb.Fake.Atomic -- the port methods of the fake, one atomic step after the other

Every field of `State` has a mutex of its own, or is atomic, and a port method takes one lock after the
other. Here the methods are programs over these accesses. `run_accesses` says that the accesses of one
method, made back to back, are the method of `Vmb.Fake.Runtime`.
-/
import Vmb.Fake.Runtime

namespace Vmb.Fake

open Vmb.Lib Vmb.Core

/-! ## Accesses -/

/-- An access to one field of the state. -/
inductive Access where
  | record (call : FakeCall)
  | maybeFail (method : Method)
  /-- The steps on `started`. -/
  | compareExchange
  | store
  | cameraList
  | payloadSize
  /-- `counter.fetch_add(1)`. -/
  | fetchAdd
  | insertCamera (h : CameraHandle) (id : String)
  | removeCamera (h : CameraHandle)
  | insertAnnounced (slot : FrameSlotId) (h : CameraHandle)
  /-- `announced.retain(|_slot, owner| *owner != h)`. -/
  | retainAnnounced (h : CameraHandle)
  /-- `entry(h).or_default()`, with the slots pushed. -/
  | pushCapture (h : CameraHandle) (slots : List (FrameSlotId × FrameCallbackId))
  | removeCapture (h : CameraHandle)
  | insertFrameCallback (id : FrameCallbackId) (cb : FrameCallback)
  | removeFrameCallback (id : FrameCallbackId)
  | insertDiscoveryCallback (id : DiscoveryCallbackId) (cb : DiscoveryCallback)
  | removeDiscoveryCallback (id : DiscoveryCallbackId)
  | insertReg (r : DiscoveryRegistrationHandle) (cb : DiscoveryCallbackId)
  | removeReg (r : DiscoveryRegistrationHandle)
  deriving DecidableEq

@[reducible] def Access.Resp : Access → Type
  | .maybeFail _ => Result Unit
  | .compareExchange => Bool
  | .cameraList => List CameraInfo
  | .payloadSize => UInt32
  | .fetchAdd => UInt64
  | _ => Unit

@[reducible] def Accesses : Signature := ⟨Access, Access.Resp⟩

/-- Make an access. -/
def access (c : Access) : Prog Accesses c.Resp := Prog.call (S := Accesses) c Prog.done

/-- What an access answers, and the state it leaves. -/
def FakeState.access : Machine Accesses FakeState := fun s c =>
  match c with
  | .record call => ((), s.record call)
  | .maybeFail method => s.maybeFail method
  | .compareExchange => (!s.started, { s with started := true })
  | .store => ((), { s with started := false })
  | .cameraList => (s.config.cameraList, s)
  | .payloadSize => (s.config.payloadSize, s)
  | .fetchAdd => s.nextU64
  | .insertCamera h id => ((), { s with cameras := s.cameras.insert h id })
  | .removeCamera h => ((), { s with cameras := s.cameras.erase h })
  | .insertAnnounced slot h => ((), { s with announcedFrames := s.announcedFrames.insert slot h })
  | .retainAnnounced h =>
    ((), { s with announcedFrames := retain (fun owner => owner ≠ h) s.announcedFrames })
  | .pushCapture h slots => ((), s.pushCapture h slots)
  | .removeCapture h => ((), { s with activeCaptures := s.activeCaptures.erase h })
  | .insertFrameCallback id cb => ((), { s with frameCallbacks := s.frameCallbacks.insert id cb })
  | .removeFrameCallback id => ((), { s with frameCallbacks := s.frameCallbacks.erase id })
  | .insertDiscoveryCallback id cb =>
    ((), { s with discoveryCallbacks := s.discoveryCallbacks.insert id cb })
  | .removeDiscoveryCallback id =>
    ((), { s with discoveryCallbacks := s.discoveryCallbacks.erase id })
  | .insertReg r cb => ((), { s with discoveryRegs := s.discoveryRegs.insert r cb })
  | .removeReg r => ((), { s with discoveryRegs := s.discoveryRegs.erase r })

/-! ## The port methods -/

namespace Atomic

variable {α : Type}

/-- A fallible method: the call is recorded, and `maybe_fail` asked, before anything else. -/
def fallible (call : FakeCall) (method : Method) (k : Prog Accesses (Result α)) :
    Prog Accesses (Result α) := do
  access (.record call)
  match ← access (.maybeFail method) with
  | .error e => pure (.error e)
  | .ok () => k

/-- `startup`. -/
def startup : Prog Accesses (Result Unit) :=
  fallible .startup .startup do
    let exchanged ← access .compareExchange
    if exchanged then pure (.ok ()) else pure (.error .alreadyStarted)

/-- `shutdown`. -/
def shutdown : Prog Accesses Unit := do
  access (.record .shutdown)
  access .store

/-- `list_cameras`. -/
def listCameras : Prog Accesses (Result (List CameraInfo)) :=
  fallible .listCameras .listCameras do
    let cameras ← access .cameraList
    pure (.ok cameras)

/-- `next_id`. -/
def nextId : Prog Accesses (Exit NonZeroU64) := do
  let id ← access .fetchAdd
  pure (if h : id ≠ 0 then .returned ⟨id, h⟩ else .panicked "fake id counter exhausted")

/-- `open_camera`. -/
def openCamera (id : String) : Prog Accesses (Exit (Result CameraHandle)) := do
  access (.record (.openCamera id))
  match ← access (.maybeFail .openCamera) with
  | .error e => pure (.returned (.error e))
  | .ok () =>
    match ← nextId with
    | .panicked m => pure (.panicked m)
    | .returned h => do
      access (.insertCamera ⟨h⟩ id)
      pure (.returned (.ok ⟨h⟩))

/-- `close_camera`. -/
def closeCamera (h : CameraHandle) : Prog Accesses Unit := do
  access (.record (.closeCamera h))
  access (.removeCamera h)
  access (.removeCapture h)

/-- `load_settings`. -/
def loadSettings (h : CameraHandle) (path : Path) : Prog Accesses (Result Unit) :=
  fallible (.loadSettings h path) .loadSettings (pure (.ok ()))

/-- `run_feature_command`. -/
def runFeatureCommand (h : CameraHandle) (name : String) : Prog Accesses (Result Unit) :=
  fallible (.runFeatureCommand h name) .runFeatureCommand (pure (.ok ()))

/-- `payload_size`. -/
def payloadSize (h : CameraHandle) : Prog Accesses (Result UInt32) :=
  fallible (.payloadSize h) .payloadSize do
    let size ← access .payloadSize
    pure (.ok size)

/-- `announce_frame`. -/
def announceFrame (h : CameraHandle) (size : UInt32) : Prog Accesses (Result FrameSlotId) :=
  fallible (.announceFrame h size) .announceFrame do
    let slot ← access .fetchAdd
    access (.insertAnnounced ⟨slot⟩ h)
    pure (.ok ⟨slot⟩)

/-- `capture_start`. -/
def captureStart (h : CameraHandle) : Prog Accesses (Result Unit) :=
  fallible (.captureStart h) .captureStart do
    access (.pushCapture h [])
    pure (.ok ())

/-- `queue_frame`. -/
def queueFrame (h : CameraHandle) (slot : FrameSlotId) (cb : FrameCallbackId) :
    Prog Accesses (Result Unit) :=
  fallible (.queueFrame h slot cb) .queueFrame do
    access (.pushCapture h [(slot, cb)])
    pure (.ok ())

/-- `capture_end`. -/
def captureEnd (h : CameraHandle) : Prog Accesses Unit := do
  access (.record (.captureEnd h))
  access (.removeCapture h)

/-- `capture_queue_flush`. -/
def captureQueueFlush (h : CameraHandle) : Prog Accesses Unit :=
  access (.record (.captureQueueFlush h))

/-- `frame_revoke_all`. -/
def frameRevokeAll (h : CameraHandle) : Prog Accesses Unit := do
  access (.record (.frameRevokeAll h))
  access (.retainAnnounced h)

/-- `register_discovery`. -/
def registerDiscovery (cb : DiscoveryCallbackId) :
    Prog Accesses (Result DiscoveryRegistrationHandle) :=
  fallible (.registerDiscovery cb) .registerDiscovery do
    let h ← access .fetchAdd
    access (.insertReg ⟨h⟩ cb)
    pure (.ok ⟨h⟩)

/-- `unregister_discovery`. -/
def unregisterDiscovery (r : DiscoveryRegistrationHandle) : Prog Accesses Unit := do
  access (.record (.unregisterDiscovery r))
  access (.removeReg r)

/-- `install_frame_callback`: the identifier comes first, because the record names it. -/
def installFrameCallback (cb : FrameCallback) : Prog Accesses FrameCallbackId := do
  let id ← access .fetchAdd
  access (.record (.installFrameCallback ⟨id⟩))
  access (.insertFrameCallback ⟨id⟩ cb)
  pure ⟨id⟩

/-- `uninstall_frame_callback`. -/
def uninstallFrameCallback (id : FrameCallbackId) : Prog Accesses Unit := do
  access (.record (.uninstallFrameCallback id))
  access (.removeFrameCallback id)

/-- `install_discovery_callback`. -/
def installDiscoveryCallback (cb : DiscoveryCallback) : Prog Accesses DiscoveryCallbackId := do
  let id ← access .fetchAdd
  access (.record (.installDiscoveryCallback ⟨id⟩))
  access (.insertDiscoveryCallback ⟨id⟩ cb)
  pure ⟨id⟩

/-- `uninstall_discovery_callback`. -/
def uninstallDiscoveryCallback (id : DiscoveryCallbackId) : Prog Accesses Unit := do
  access (.record (.uninstallDiscoveryCallback id))
  access (.removeDiscoveryCallback id)

end Atomic

/-- The method behind a port call, as a program over accesses. -/
def accesses : (c : PortCall) → Prog Accesses c.Resp
  | .startup => Atomic.startup
  | .shutdown => Atomic.shutdown
  | .listCameras => Atomic.listCameras
  | .openCamera id => Atomic.openCamera id
  | .closeCamera h => Atomic.closeCamera h
  | .loadSettings h path => Atomic.loadSettings h path
  | .runFeatureCommand h name => Atomic.runFeatureCommand h name
  | .payloadSize h => Atomic.payloadSize h
  | .announceFrame h size => Atomic.announceFrame h size
  | .captureStart h => Atomic.captureStart h
  | .queueFrame h slot cb => Atomic.queueFrame h slot cb
  | .captureEnd h => Atomic.captureEnd h
  | .captureQueueFlush h => Atomic.captureQueueFlush h
  | .frameRevokeAll h => Atomic.frameRevokeAll h
  | .registerDiscovery cb => Atomic.registerDiscovery cb
  | .unregisterDiscovery r => Atomic.unregisterDiscovery r
  | .installFrameCallback cb => Atomic.installFrameCallback cb
  | .uninstallFrameCallback id => Atomic.uninstallFrameCallback id
  | .installDiscoveryCallback cb => Atomic.installDiscoveryCallback cb
  | .uninstallDiscoveryCallback id => Atomic.uninstallDiscoveryCallback id

/-! ## One method at a time -/

section Run

variable {α : Type} {s : FakeState}

theorem run_access_bind (c : Access) (f : c.Resp → Prog Accesses α) :
    (access c >>= f).run FakeState.access s =
      (f (s.access c).1).run FakeState.access (s.access c).2 := rfl

/-- A fallible method that is not rigged to fail goes on. -/
theorem run_fallible (call : FakeCall) (method : Method) (k : Prog Accesses (Result α)) :
    (Atomic.fallible call method k).run FakeState.access s =
      match (s.record call).maybeFail method with
      | (.error e, s) => (.error e, s)
      | (.ok (), s) => k.run FakeState.access s := by
  unfold Atomic.fallible
  rw [run_access_bind, run_access_bind]
  dsimp only [FakeState.access]
  rcases (s.record call).maybeFail method with ⟨e | _, s'⟩
  · rfl
  · rfl

/-- A fallible method that does no more. -/
theorem run_fallible_ok (call : FakeCall) (method : Method) :
    (Atomic.fallible call method (pure (.ok ()))).run FakeState.access s =
      (s.record call).maybeFail method := by
  rw [run_fallible]
  rcases (s.record call).maybeFail method with ⟨e | _, s'⟩
  · rfl
  · rfl

theorem run_startup : Atomic.startup.run FakeState.access s = s.startup := by
  unfold Atomic.startup FakeState.startup
  rw [run_fallible]
  rcases (s.record .startup).maybeFail .startup with ⟨e | _, s'⟩
  · rfl
  · dsimp only
    rw [run_access_bind]
    by_cases hstarted : s'.started = true
    · -- the flag is set already, so the failed exchange leaves the state as it is
      have hs : (s'.access .compareExchange).2 = s' := by
        show ({ s' with started := true } : FakeState) = s'
        rw [← hstarted]
      have hfailed : ¬ (s'.access .compareExchange).1 = true := by
        show ¬ (!s'.started) = true
        rw [hstarted]
        decide
      rw [if_pos hstarted, if_neg hfailed, hs]
      rfl
    · have hexchanged : (s'.access .compareExchange).1 = true := by
        show (!s'.started) = true
        rw [Bool.eq_false_of_not_eq_true hstarted]
        rfl
      rw [if_neg hstarted, if_pos hexchanged]
      rfl

theorem run_nextId_bind (f : Exit NonZeroU64 → Prog Accesses α) :
    (Atomic.nextId >>= f).run FakeState.access s =
      (f s.nextId.1).run FakeState.access s.nextId.2 := rfl

theorem run_openCamera (id : String) :
    (Atomic.openCamera id).run FakeState.access s = s.openCamera id := by
  unfold Atomic.openCamera FakeState.openCamera
  rw [run_access_bind, run_access_bind]
  dsimp only [FakeState.access]
  rcases (s.record (.openCamera id)).maybeFail .openCamera with ⟨e | _, s'⟩
  · rfl
  · dsimp only
    rw [run_nextId_bind]
    rcases s'.nextId with ⟨h | m, s''⟩
    · rfl
    · rfl

/-- **The accesses of a method, made back to back, are the method.** -/
theorem run_accesses (s : FakeState) (c : PortCall) :
    (accesses c).run FakeState.access s = fakeVmbRuntime s c := by
  cases c with
  | startup => exact run_startup
  | openCamera id => exact run_openCamera id
  | listCameras => exact run_fallible _ _ _
  | loadSettings h path => exact run_fallible_ok _ _
  | runFeatureCommand h name => exact run_fallible_ok _ _
  | payloadSize h => exact run_fallible _ _ _
  | announceFrame h size => exact run_fallible _ _ _
  | captureStart h => exact run_fallible _ _ _
  | queueFrame h slot cb => exact run_fallible _ _ _
  | registerDiscovery cb => exact run_fallible _ _ _
  | _ => rfl

end Run

end Vmb.Fake

/-
# Vmb.Ffi.Atomic -- the port methods, one atomic step after the other

Every field of `FfiState` is behind a lock of its own, or atomic, and a port method takes the locks
one after the other: between two accesses any other thread may run. Here the methods are programs
over these accesses and the SDK calls. `run_steps` says that the steps of one method, made back to
back, are the method of `Vmb.Ffi.Runtime`.

`queue_frame` keeps `frames` locked while it calls the SDK. As two steps it can be interleaved in more
ways than the lock allows.
-/
import Vmb.Ffi.Runtime
import Vmb.Lib.Tracks

namespace Vmb.Ffi

open Vmb.Lib Vmb.Core Vmb.Sdk

/-! ## Accesses -/

/-- An access to one field of the state. -/
inductive Access where
  /-- The steps on `STARTED`. -/
  | compareExchange
  | store
  | swap
  /-- `counter.fetch_add(1)`. -/
  | fetchAdd
  | getCamera (h : CameraHandle)
  | insertCamera (h : CameraHandle) (raw : VmbHandle)
  | removeCamera (h : CameraHandle)
  /-- The allocation of a `TrampolineContext`, with its self-pointer. -/
  | newContext (size : UInt32)
  | insertFrame (slot : FrameSlotId) (ctx : Box TrampolineContext)
  /-- `get_mut`, `set_callback` and `vmb_frame_mut_ptr`; the answer is the frame pointer. -/
  | patchFrame (slot : FrameSlotId) (callback : FrameCallback)
  | clearFrames
  | getFrameCallback (id : FrameCallbackId)
  | insertFrameCallback (id : FrameCallbackId) (cb : FrameCallback)
  | removeFrameCallback (id : FrameCallbackId)
  | getDiscoveryCallback (id : DiscoveryCallbackId)
  | insertDiscoveryCallback (id : DiscoveryCallbackId) (cb : DiscoveryCallback)
  | removeDiscoveryCallback (id : DiscoveryCallbackId)
  | insertReg (r : DiscoveryRegistrationHandle) (reg : DiscoveryRegState)
  | removeReg (r : DiscoveryRegistrationHandle)
  /-- `Box::into_raw(Box::new(ctx))`. -/
  | intoRaw (ctx : DiscoveryTrampolineCtx)
  /-- `drop(Box::from_raw(ptr))`. -/
  | fromRaw (ptr : Nat)

@[reducible] def Access.Resp : Access → Type
  | .compareExchange => Bool
  | .swap => Bool
  | .fetchAdd => UInt64
  | .getCamera _ => Option VmbHandle
  | .removeCamera _ => Option VmbHandle
  | .newContext _ => Box TrampolineContext
  | .patchFrame _ _ => Option Nat
  | .getFrameCallback _ => Option FrameCallback
  | .getDiscoveryCallback _ => Option DiscoveryCallback
  | .removeReg _ => Option DiscoveryRegState
  | .intoRaw _ => Nat
  | _ => Unit

/-- What an access answers, and the state it leaves. -/
def FfiState.access (s : FfiState) : (c : Access) → c.Resp × FfiState
  | .compareExchange => (!s.started, { s with started := true })
  | .store => ((), { s with started := false })
  | .swap => (s.started, { s with started := false })
  | .fetchAdd => s.nextU64
  | .getCamera h => (s.cameras.lookup h, s)
  | .insertCamera h raw => ((), { s with cameras := s.cameras.insert h raw })
  | .removeCamera h => (s.cameras.lookup h, { s with cameras := s.cameras.erase h })
  | .newContext size =>
    let (ctx, s) := TrampolineContext.new s size
    (ctx.vmbFrameMutPtr.2, s)
  | .insertFrame slot ctx => ((), { s with frames := s.frames.insert slot ctx })
  | .patchFrame slot callback =>
    match s.frames.lookup slot with
    | none => (none, s)
    | some ctx =>
      let (framePtr, ctx) := (ctx.setCallback callback).vmbFrameMutPtr
      (some framePtr, { s with frames := s.frames.insert slot ctx })
  | .clearFrames => ((), { s with frames := ∅ })
  | .getFrameCallback id => (s.frameCallbacks.lookup id, s)
  | .insertFrameCallback id cb => ((), { s with frameCallbacks := s.frameCallbacks.insert id cb })
  | .removeFrameCallback id => ((), { s with frameCallbacks := s.frameCallbacks.erase id })
  | .getDiscoveryCallback id => (s.discoveryCallbacks.lookup id, s)
  | .insertDiscoveryCallback id cb =>
    ((), { s with discoveryCallbacks := s.discoveryCallbacks.insert id cb })
  | .removeDiscoveryCallback id =>
    ((), { s with discoveryCallbacks := s.discoveryCallbacks.erase id })
  | .insertReg r reg => ((), { s with discoveryRegs := s.discoveryRegs.insert r reg })
  | .removeReg r => (s.discoveryRegs.lookup r, { s with discoveryRegs := s.discoveryRegs.erase r })
  | .intoRaw ctx => s.intoRaw ctx
  | .fromRaw ptr => ((), s.fromRaw ptr)

/-- An atomic step of a port method. -/
inductive AtomicStep where
  | sdk (c : SdkCall)
  | access (c : Access)

@[reducible] def AtomicStep.Resp : AtomicStep → Type
  | .sdk c => c.Resp
  | .access c => c.Resp

@[reducible] def Steps : Signature := ⟨AtomicStep, AtomicStep.Resp⟩

/-- Call a VmbC function from a port method. -/
def sdk (c : SdkCall) : Prog Steps c.Resp := Prog.call (S := Steps) (.sdk c) Prog.done

/-- Make an access. -/
def access (c : Access) : Prog Steps c.Resp := Prog.call (S := Steps) (.access c) Prog.done

/-- The adapter over `api`, one atomic step at a time. -/
def stepMachine {τ : Type} (api : VmbApi τ) : Machine Steps (FfiState × τ) := fun x c =>
  match c with
  | .sdk c => ((api x.2 c).1, (x.1, (api x.2 c).2))
  | .access c => ((x.1.access c).1, ((x.1.access c).2, x.2))

/-! ## The port methods -/

/-- A program over the steps of `startup` and `shutdown`, as atomic steps. -/
def ofLifecycle {α : Type} : Prog Lifecycle α → Prog Steps α
  | .done a => .done a
  | .call .compareExchange k =>
    .call (S := Steps) (.access .compareExchange) fun exchanged => ofLifecycle (k exchanged)
  | .call .store k => .call (S := Steps) (.access .store) fun _ => ofLifecycle (k ())
  | .call .swap k => .call (S := Steps) (.access .swap) fun started => ofLifecycle (k started)
  | .call .vmbStartup k => .call (S := Steps) (.sdk .vmbStartup) fun rc => ofLifecycle (k rc)
  | .call .vmbShutdown k => .call (S := Steps) (.sdk .vmbShutdown) fun _ => ofLifecycle (k ())

namespace Atomic

/-- `next_id`. -/
def nextId : Prog Steps (Exit NonZeroU64) := do
  let id ← access .fetchAdd
  pure (if h : id ≠ 0 then .returned ⟨id, h⟩
    else .panicked "ID counter started at 1 and never wraps in practice")

/-- `list_cameras`. -/
def listCameras : Prog Steps (Result (List CameraInfo)) := do
  let query ← sdk (.vmbCamerasList 0)
  match check query.rc with
  | .error e => pure (.error e)
  | .ok () =>
    if query.numFound = 0 then
      pure (.ok [])
    else do
      let buf := List.replicate query.numFound.toNat VmbCameraInfo.zeroed
      let answer ← sdk (.vmbCamerasList query.numFound)
      match check answer.rc with
      | .error e => pure (.error e)
      | .ok () =>
        pure (.ok (((writtenTo buf answer.filled).take answer.numFound.toNat).map
          FfiState.cameraInfo))

/-- `open_camera`. -/
def openCamera (id : String) : Prog Steps (Exit (Result CameraHandle)) :=
  match CString.new (bytes id) with
  | none => pure (.returned (.error (.invalidString "camera_id")))
  | some cId => do
    let (rc, handle) ← sdk (.vmbCameraOpen cId vmbAccessModeFull)
    match check rc with
    | .error e => pure (.returned (.error e))
    | .ok () =>
      match ← nextId with
      | .panicked m => pure (.panicked m)
      | .returned id => do
        -- other threads may open and close cameras between the two steps
        access (.insertCamera ⟨id⟩ handle)
        pure (.returned (.ok ⟨id⟩))

/-- `close_camera`. -/
def closeCamera (h : CameraHandle) : Prog Steps Unit := do
  match ← access (.removeCamera h) with
  | none => pure ()
  | some raw => do
    let _ ← sdk (.vmbCameraClose raw)
    pure ()

/-- `resolve_camera`. -/
def resolveCamera (h : CameraHandle) : Prog Steps (Result VmbHandle) := do
  match ← access (.getCamera h) with
  | none => pure (.error (.invalidString "unknown camera handle"))
  | some raw => pure (.ok raw)

/-- A fallible method on a camera: `resolve_camera(h)?` comes first. -/
def withCamera {α : Type} (h : CameraHandle) (k : VmbHandle → Prog Steps (Result α)) :
    Prog Steps (Result α) := do
  match ← resolveCamera h with
  | .error e => pure (.error e)
  | .ok raw => k raw

/-- A teardown method on a camera: nothing is done for an unknown handle. -/
def ifCamera (h : CameraHandle) (k : VmbHandle → Prog Steps Unit) : Prog Steps Unit := do
  match ← resolveCamera h with
  | .error _ => pure ()
  | .ok raw => k raw

/-- `load_settings`. -/
def loadSettings (h : CameraHandle) (path : Path) : Prog Steps (Result Unit) :=
  withCamera h fun raw =>
    match CString.new (lossy path) with
    | none => pure (.error (.invalidString "settings_xml path"))
    | some cPath => do
      let rc ← sdk (.vmbSettingsLoad raw cPath)
      pure (check rc)

/-- `run_feature_command`. -/
def runFeatureCommand (h : CameraHandle) (name : String) : Prog Steps (Result Unit) :=
  withCamera h fun raw =>
    match CString.new (bytes name) with
    | none => pure (.error (.invalidString "feature_command"))
    | some cmd => do
      let rc ← sdk (.vmbFeatureCommandRun raw cmd)
      pure (check rc)

/-- `payload_size`. -/
def payloadSize (h : CameraHandle) : Prog Steps (Result UInt32) :=
  withCamera h fun raw => do
    let (rc, payload) ← sdk (.vmbPayloadSizeGet raw)
    match check rc with
    | .error e => pure (.error e)
    | .ok () => pure (.ok payload)

/-- `announce_frame`. -/
def announceFrame (h : CameraHandle) (size : UInt32) : Prog Steps (Result FrameSlotId) :=
  withCamera h fun raw => do
    let ctx ← access (.newContext size)
    let rc ← sdk (.vmbFrameAnnounce raw ctx.addr)
    match check rc with
    | .error e => pure (.error e)
    | .ok () => do
      let slot ← access .fetchAdd
      access (.insertFrame ⟨slot⟩ ctx)
      pure (.ok ⟨slot⟩)

/-- `capture_start`. -/
def captureStart (h : CameraHandle) : Prog Steps (Result Unit) :=
  withCamera h fun raw => do
    let rc ← sdk (.vmbCaptureStart raw)
    pure (check rc)

/-- `queue_frame`. -/
def queueFrame (h : CameraHandle) (slot : FrameSlotId) (cb : FrameCallbackId) :
    Prog Steps (Result Unit) :=
  withCamera h fun raw => do
    match ← access (.getFrameCallback cb) with
    | none => pure (.error (.invalidString "unknown frame callback id"))
    | some callback => do
      match ← access (.patchFrame slot callback) with
      | none => pure (.error (.invalidString "unknown frame slot id"))
      | some framePtr => do
        let rc ← sdk (.vmbCaptureFrameQueue raw framePtr .frameCallbackTrampoline)
        pure (check rc)

/-- `capture_end`. -/
def captureEnd (h : CameraHandle) : Prog Steps Unit :=
  ifCamera h fun raw => do
    let _ ← sdk (.vmbCaptureEnd raw)
    pure ()

/-- `capture_queue_flush`. -/
def captureQueueFlush (h : CameraHandle) : Prog Steps Unit :=
  ifCamera h fun raw => do
    let _ ← sdk (.vmbCaptureQueueFlush raw)
    pure ()

/-- `frame_revoke_all`. -/
def frameRevokeAll (h : CameraHandle) : Prog Steps Unit :=
  ifCamera h fun raw => do
    let _ ← sdk (.vmbFrameRevokeAll raw)
    access .clearFrames

/-- `register_discovery`. -/
def registerDiscovery (cb : DiscoveryCallbackId) :
    Prog Steps (Result DiscoveryRegistrationHandle) := do
  match ← access (.getDiscoveryCallback cb) with
  | none => pure (.error (.invalidString "unknown discovery callback id"))
  | some callback =>
    match CString.new (bytes FfiState.featureEventCameraDiscovery) with
    | none => pure (.error (.invalidString FfiState.featureEventCameraDiscovery))
    | some feature => do
      let ctxPtr ← access (.intoRaw ⟨callback⟩)
      let rc ← sdk
        (.vmbFeatureInvalidationRegister gVmbHandle feature .discoveryTrampoline ctxPtr)
      match check rc with
      | .error e => do
        access (.fromRaw ctxPtr)
        pure (.error e)
      | .ok () => do
        let handle ← access .fetchAdd
        access (.insertReg ⟨handle⟩ ⟨ctxPtr, feature⟩)
        pure (.ok ⟨handle⟩)

/-- `unregister_discovery`. -/
def unregisterDiscovery (r : DiscoveryRegistrationHandle) : Prog Steps Unit := do
  match ← access (.removeReg r) with
  | none => pure ()
  | some reg => do
    let _ ← sdk (.vmbFeatureInvalidationUnregister gVmbHandle reg.feature .discoveryTrampoline)
    access (.fromRaw reg.ctxPtr)

/-- `install_frame_callback`. -/
def installFrameCallback (cb : FrameCallback) : Prog Steps FrameCallbackId := do
  let id ← access .fetchAdd
  access (.insertFrameCallback ⟨id⟩ cb)
  pure ⟨id⟩

/-- `install_discovery_callback`. -/
def installDiscoveryCallback (cb : DiscoveryCallback) : Prog Steps DiscoveryCallbackId := do
  let id ← access .fetchAdd
  access (.insertDiscoveryCallback ⟨id⟩ cb)
  pure ⟨id⟩

end Atomic

/-- The method behind a port call, as a program over atomic steps. -/
def steps : (c : PortCall) → Prog Steps c.Resp
  | .startup => ofLifecycle startup
  | .shutdown => ofLifecycle shutdown
  | .listCameras => Atomic.listCameras
  | .openCamera id => Atomic.openCamera id
  | .closeCamera h => Atomic.closeCamera h
  | .loadSettings h path => Atomic.loadSettings h path
  | .runFeatureCommand h name => Atomic.runFeatureCommand h name
  | .payloadSize h => Atomic.payloadSize h
  | .announceFrame h size => Atomic.announceFrame h size
  | .captureStart h => Atomic.captureStart h
  | .queueFrame h slot cb => Atomic.queueFrame h slot cb
  | .captureEnd h => Atomic.captureEnd h
  | .captureQueueFlush h => Atomic.captureQueueFlush h
  | .frameRevokeAll h => Atomic.frameRevokeAll h
  | .registerDiscovery cb => Atomic.registerDiscovery cb
  | .unregisterDiscovery r => Atomic.unregisterDiscovery r
  | .installFrameCallback cb => Atomic.installFrameCallback cb
  | .uninstallFrameCallback id => access (.removeFrameCallback id)
  | .installDiscoveryCallback cb => Atomic.installDiscoveryCallback cb
  | .uninstallDiscoveryCallback id => access (.removeDiscoveryCallback id)

/-! ## One method at a time -/

section Plays

variable {α : Type} {s : FfiState}

/-- From `s`, the steps of `p` made back to back do what `q` does. -/
def Plays (p : Prog Steps α) (s : FfiState) (q : SdkM (α × FfiState)) : Prop :=
  ∀ (τ : Type) (api : VmbApi τ) (t : τ),
    p.run (stepMachine api) (s, t) = ((q.run api t).1.1, ((q.run api t).1.2, (q.run api t).2))

theorem plays_pure (a : α) : Plays (pure a) s (pure (a, s)) := fun _ _ _ => rfl

/-- An SDK call. -/
theorem plays_sdk {c : SdkCall} {f : c.Resp → Prog Steps α} {g : c.Resp → SdkM (α × FfiState)}
    (h : ∀ r, Plays (f r) s (g r)) : Plays (sdk c >>= f) s (vmb c >>= g) :=
  fun τ api t => h (api t c).1 τ api (api t c).2

/-- An access. -/
theorem plays_access {c : Access} {f : c.Resp → Prog Steps α} {q : SdkM (α × FfiState)}
    (h : Plays (f (s.access c).1) (s.access c).2 q) : Plays (access c >>= f) s q := h

theorem plays_ofLifecycle (p : Prog Lifecycle α) (s : FfiState) :
    Plays (ofLifecycle p) s (s.sequentially p) := by
  induction p generalizing s with
  | done a => exact plays_pure a
  | call c k ih =>
      cases c with
      | compareExchange =>
          show Plays (ofLifecycle (k !s.started)) { s with started := true } _
          rw [FfiState.sequentially]
          split
          case isTrue h =>
            have hs : ({ s with started := true } : FfiState) = s := by rw [← h]
            rw [hs, h]
            exact ih false s
          case isFalse h =>
            rw [Bool.eq_false_of_not_eq_true h]
            exact ih true { s with started := true }
      | store => exact ih () { s with started := false }
      | swap => exact ih s.started { s with started := false }
      | vmbStartup => exact fun τ api t => ih _ s τ api _
      | vmbShutdown => exact fun τ api t => ih _ s τ api _

theorem plays_resolveCamera {h : CameraHandle} {f : Result VmbHandle → Prog Steps α}
    {q : SdkM (α × FfiState)} (hf : Plays (f (s.resolveCamera h)) s q) :
    Plays (Atomic.resolveCamera h >>= f) s q := by
  unfold FfiState.resolveCamera at hf
  unfold Atomic.resolveCamera
  rw [Prog.bind_assoc]
  refine plays_access ?_
  dsimp only [FfiState.access]
  cases hlookup : s.cameras.lookup h with
  | none =>
      rw [hlookup] at hf
      exact hf
  | some raw =>
      rw [hlookup] at hf
      exact hf

/-- A fallible method on a camera. -/
theorem plays_withCamera {h : CameraHandle} {k : VmbHandle → Prog Steps (Result α)}
    {q : VmbHandle → SdkM (Result α × FfiState)} (hk : ∀ raw, Plays (k raw) s (q raw)) :
    Plays (Atomic.withCamera h k) s
      (match s.resolveCamera h with
        | .error e => pure (.error e, s)
        | .ok raw => q raw) := by
  refine plays_resolveCamera ?_
  cases s.resolveCamera h with
  | error e => exact plays_pure _
  | ok raw => exact hk raw

/-- A teardown method on a camera. -/
theorem plays_ifCamera {h : CameraHandle} {k : VmbHandle → Prog Steps Unit}
    {q : VmbHandle → SdkM (Unit × FfiState)} (hk : ∀ raw, Plays (k raw) s (q raw)) :
    Plays (Atomic.ifCamera h k) s
      (match s.resolveCamera h with
        | .error _ => pure ((), s)
        | .ok raw => q raw) := by
  refine plays_resolveCamera ?_
  cases s.resolveCamera h with
  | error e => exact plays_pure _
  | ok raw => exact hk raw

theorem plays_listCameras : Plays Atomic.listCameras s s.listCameras := by
  unfold Atomic.listCameras FfiState.listCameras
  refine plays_sdk fun query => ?_
  cases check query.rc with
  | error e => exact plays_pure _
  | ok _ =>
      dsimp only
      split
      · exact plays_pure _
      · refine plays_sdk fun answer => ?_
        cases check answer.rc with
        | error e => exact plays_pure _
        | ok _ => exact plays_pure _

theorem plays_nextId {f : Exit NonZeroU64 → Prog Steps α} {q : SdkM (α × FfiState)}
    (h : Plays (f s.nextId.1) s.nextId.2 q) : Plays (Atomic.nextId >>= f) s q := h

theorem plays_openCamera (id : String) : Plays (Atomic.openCamera id) s (s.openCamera id) := by
  unfold Atomic.openCamera FfiState.openCamera
  cases CString.new (bytes id) with
  | none => exact plays_pure _
  | some cId =>
      refine plays_sdk fun ⟨rc, handle⟩ => ?_
      dsimp only
      cases check rc with
      | error e => exact plays_pure _
      | ok _ =>
          refine plays_nextId ?_
          rcases s.nextId with ⟨id | m, s'⟩
          · exact plays_access (plays_pure _)
          · exact plays_pure _

theorem plays_closeCamera (h : CameraHandle) : Plays (Atomic.closeCamera h) s (s.closeCamera h) := by
  unfold Atomic.closeCamera FfiState.closeCamera
  refine plays_access ?_
  dsimp only [FfiState.access]
  cases hlookup : s.cameras.lookup h with
  | none =>
      rw [erase_of_lookup_none hlookup]
      exact plays_pure _
  | some raw => exact plays_sdk fun rc => plays_pure _

theorem plays_loadSettings (h : CameraHandle) (path : Path) :
    Plays (Atomic.loadSettings h path) s (s.loadSettings h path) := by
  refine plays_withCamera fun raw => ?_
  cases CString.new (lossy path) with
  | none => exact plays_pure _
  | some cPath => exact plays_sdk fun rc => plays_pure _

theorem plays_runFeatureCommand (h : CameraHandle) (name : String) :
    Plays (Atomic.runFeatureCommand h name) s (s.runFeatureCommand h name) := by
  refine plays_withCamera fun raw => ?_
  cases CString.new (bytes name) with
  | none => exact plays_pure _
  | some cmd => exact plays_sdk fun rc => plays_pure _

theorem plays_payloadSize (h : CameraHandle) :
    Plays (Atomic.payloadSize h) s (s.payloadSize h) := by
  refine plays_withCamera fun raw => plays_sdk fun ⟨rc, payload⟩ => ?_
  dsimp only
  cases check rc with
  | error e => exact plays_pure _
  | ok _ => exact plays_pure _

theorem plays_announceFrame (h : CameraHandle) (size : UInt32) :
    Plays (Atomic.announceFrame h size) s (s.announceFrame h size) := by
  refine plays_withCamera fun raw => plays_access (plays_sdk fun rc => ?_)
  cases check rc with
  | error e => exact plays_pure _
  | ok _ => exact plays_access (plays_access (plays_pure _))

theorem plays_queueFrame (h : CameraHandle) (slot : FrameSlotId) (cb : FrameCallbackId) :
    Plays (Atomic.queueFrame h slot cb) s (s.queueFrame h slot cb) := by
  refine plays_withCamera fun raw => plays_access ?_
  dsimp only [FfiState.access]
  cases s.frameCallbacks.lookup cb with
  | none => exact plays_pure _
  | some callback =>
      refine plays_access ?_
      dsimp only [FfiState.access]
      cases s.frames.lookup slot with
      | none => exact plays_pure _
      | some ctx => exact plays_sdk fun rc => plays_pure _

theorem plays_registerDiscovery (cb : DiscoveryCallbackId) :
    Plays (Atomic.registerDiscovery cb) s (s.registerDiscovery cb) := by
  unfold Atomic.registerDiscovery FfiState.registerDiscovery
  refine plays_access ?_
  dsimp only [FfiState.access]
  cases s.discoveryCallbacks.lookup cb with
  | none => exact plays_pure _
  | some callback =>
      dsimp only
      cases CString.new (bytes FfiState.featureEventCameraDiscovery) with
      | none => exact plays_pure _
      | some feature =>
          refine plays_access (plays_sdk fun rc => ?_)
          cases check rc with
          | error e => exact plays_access (plays_pure _)
          | ok _ => exact plays_access (plays_access (plays_pure _))

theorem plays_unregisterDiscovery (r : DiscoveryRegistrationHandle) :
    Plays (Atomic.unregisterDiscovery r) s (s.unregisterDiscovery r) := by
  unfold Atomic.unregisterDiscovery FfiState.unregisterDiscovery
  refine plays_access ?_
  dsimp only [FfiState.access]
  cases hlookup : s.discoveryRegs.lookup r with
  | none =>
      rw [erase_of_lookup_none hlookup]
      exact plays_pure _
  | some reg => exact plays_sdk fun rc => plays_access (plays_pure _)

/-- **The atomic steps of a method, made back to back, are the method.** -/
theorem plays_steps (s : FfiState) (c : PortCall) : Plays (steps c) s (s.dispatch c) := by
  cases c with
  | startup => exact plays_ofLifecycle startup s
  | shutdown => exact plays_ofLifecycle shutdown s
  | listCameras => exact plays_listCameras
  | openCamera id => exact plays_openCamera id
  | closeCamera h => exact plays_closeCamera h
  | loadSettings h path => exact plays_loadSettings h path
  | runFeatureCommand h name => exact plays_runFeatureCommand h name
  | payloadSize h => exact plays_payloadSize h
  | announceFrame h size => exact plays_announceFrame h size
  | captureStart h => exact plays_withCamera fun raw => plays_sdk fun rc => plays_pure _
  | queueFrame h slot cb => exact plays_queueFrame h slot cb
  | captureEnd h => exact plays_ifCamera fun raw => plays_sdk fun rc => plays_pure _
  | captureQueueFlush h => exact plays_ifCamera fun raw => plays_sdk fun rc => plays_pure _
  | frameRevokeAll h =>
      exact plays_ifCamera fun raw => plays_sdk fun rc => plays_access (plays_pure _)
  | registerDiscovery cb => exact plays_registerDiscovery cb
  | unregisterDiscovery r => exact plays_unregisterDiscovery r
  | installFrameCallback cb => exact plays_access (plays_access (plays_pure _))
  | uninstallFrameCallback id => exact plays_access (plays_pure _)
  | installDiscoveryCallback cb => exact plays_access (plays_access (plays_pure _))
  | uninstallDiscoveryCallback id => exact plays_access (plays_pure _)

theorem run_steps {τ : Type} (api : VmbApi τ) (x : FfiState × τ) (c : PortCall) :
    (steps c).run (stepMachine api) x = vmbFfiRuntime api x c := plays_steps x.1 c τ api x.2

end Plays

end Vmb.Ffi

/-
# Vmb.Fake.Step -- what one port call does to the fake

The counterpart of `Vmb.Ffi.Step` for the fake: every call records itself and may fail as rigged, and
otherwise changes the tables as listed. `fakeVmbRuntime_step` says that the fake does nothing else.
-/
import Vmb.Core.Trace
import Vmb.Fake.Runtime

namespace Vmb.Fake

open Vmb.Lib Vmb.Core

/-- The state with another configuration and call record. -/
def FakeState.books (s : FakeState) (config : Config) (calls : List FakeCall) : FakeState :=
  { s with config := config, calls := calls }

/-- Rigged failures are used up, and nothing else about the configuration changes but the call
counters. -/
structure Uses (config config' : Config) : Prop where
  failures : ∀ k e, config'.failures.lookup k = some e → config.failures.lookup k = some e
  cameraList : config'.cameraList = config.cameraList
  payloadSize : config'.payloadSize = config.payloadSize

/-- The answer of a call that succeeds and changes no table. -/
def Succeeds (s : FakeState) : (c : PortCall) → c.Resp → Prop
  | .listCameras, r => r = .ok s.config.cameraList
  | .loadSettings _ _, r => r = .ok ()
  | .runFeatureCommand _ _, r => r = .ok ()
  | .payloadSize _, r => r = .ok s.config.payloadSize
  | .captureQueueFlush _, _ => True
  | _, _ => False

/-- What a call does to the tables. -/
inductive Effect (s : FakeState) : (c : PortCall) → c.Resp → FakeState → Prop
  | failed (c : PortCall) (e : VmbError) (r : c.Resp) (hr : Fails e c r)
      (he : ∃ k, s.config.failures.lookup k = some e) : Effect s c r s
  | quiet (c : PortCall) (r : c.Resp) (hr : Succeeds s c r) : Effect s c r s
  | startRefused (hs : s.started = true) : Effect s .startup (.error .alreadyStarted) s
  | started (hs : s.started = false) : Effect s .startup (.ok ()) { s with started := true }
  | stopped : Effect s .shutdown () { s with started := false }
  | opened (id : String) (hid : s.currentId ≠ 0) :
      Effect s (.openCamera id) (.returned (.ok ⟨s.currentId, hid⟩))
        { s with counter := s.counter + 1, cameras := s.cameras.insert ⟨s.currentId, hid⟩ id }
  /-- The identifier counter has wrapped to zero. -/
  | openPanicked (id : String) (m : String) (hid : s.currentId = 0) :
      Effect s (.openCamera id) (.panicked m) { s with counter := s.counter + 1 }
  | closed (h : CameraHandle) :
      Effect s (.closeCamera h) ()
        { s with cameras := s.cameras.erase h, activeCaptures := s.activeCaptures.erase h }
  | announced (h : CameraHandle) (size : UInt32) :
      Effect s (.announceFrame h size) (.ok ⟨s.currentId⟩)
        { s with
          counter := s.counter + 1
          announcedFrames := s.announcedFrames.insert ⟨s.currentId⟩ h }
  | captureStarted (h : CameraHandle) : Effect s (.captureStart h) (.ok ()) (s.pushCapture h [])
  | queued (h : CameraHandle) (slot : FrameSlotId) (cb : FrameCallbackId) :
      Effect s (.queueFrame h slot cb) (.ok ()) (s.pushCapture h [(slot, cb)])
  | captureEnded (h : CameraHandle) :
      Effect s (.captureEnd h) () { s with activeCaptures := s.activeCaptures.erase h }
  | revoked (h : CameraHandle) :
      Effect s (.frameRevokeAll h) ()
        { s with announcedFrames := retain (fun owner => owner ≠ h) s.announcedFrames }
  | registered (cb : DiscoveryCallbackId) :
      Effect s (.registerDiscovery cb) (.ok ⟨s.currentId⟩)
        { s with
          counter := s.counter + 1
          discoveryRegs := s.discoveryRegs.insert ⟨s.currentId⟩ cb }
  | unregistered (r : DiscoveryRegistrationHandle) :
      Effect s (.unregisterDiscovery r) () { s with discoveryRegs := s.discoveryRegs.erase r }
  | installedFrame (f : FrameCallback) :
      Effect s (.installFrameCallback f) ⟨s.currentId⟩
        { s with
          counter := s.counter + 1
          frameCallbacks := s.frameCallbacks.insert ⟨s.currentId⟩ f }
  | uninstalledFrame (id : FrameCallbackId) :
      Effect s (.uninstallFrameCallback id) () { s with frameCallbacks := s.frameCallbacks.erase id }
  | installedDiscovery (f : DiscoveryCallback) :
      Effect s (.installDiscoveryCallback f) ⟨s.currentId⟩
        { s with
          counter := s.counter + 1
          discoveryCallbacks := s.discoveryCallbacks.insert ⟨s.currentId⟩ f }
  | uninstalledDiscovery (id : DiscoveryCallbackId) :
      Effect s (.uninstallDiscoveryCallback id) ()
        { s with discoveryCallbacks := s.discoveryCallbacks.erase id }

/-- A call has its effect on the tables, and keeps the books. -/
def Step (s : FakeState) (c : PortCall) (r : c.Resp) (s' : FakeState) : Prop :=
  ∃ s₁ config calls, Effect s c r s₁ ∧ Uses s.config config ∧ s' = s₁.books config calls

/-! ## The fake makes these steps only -/

theorem uses_refl (config : Config) : Uses config config :=
  ⟨fun _ _ h => h, rfl, rfl⟩

/-- `maybe_fail` fails as rigged, or not at all, and keeps the books. -/
theorem maybeFail_cases (s : FakeState) (method : Method) :
    (∃ e config, s.maybeFail method = (.error e, s.books config s.calls) ∧
        (∃ k, s.config.failures.lookup k = some e) ∧ Uses s.config config) ∨
      ∃ config, s.maybeFail method = (.ok (), s.books config s.calls) ∧ Uses s.config config := by
  simp only [FakeState.maybeFail]
  split
  · rename_i e he
    exact Or.inl ⟨e, _, rfl, ⟨_, he⟩, fun _ _ h => (lookup_erase_eq_some.mp h).2, rfl, rfl⟩
  · exact Or.inr ⟨_, rfl, fun _ _ h => h, rfl, rfl⟩

section Steps

variable {s : FakeState}

/-- A recorded call that is rigged to fail, or is not. -/
theorem recorded_cases (s : FakeState) (call : FakeCall) (method : Method) :
    (∃ e config, (s.record call).maybeFail method = (.error e, s.books config (s.calls ++ [call])) ∧
        (∃ k, s.config.failures.lookup k = some e) ∧ Uses s.config config) ∨
      ∃ config, (s.record call).maybeFail method = (.ok (), s.books config (s.calls ++ [call])) ∧
        Uses s.config config :=
  maybeFail_cases (s.record call) method

theorem Effect.step {c : PortCall} {r : c.Resp} {s₁ : FakeState} {config : Config}
    (h : Effect s c r s₁) (huses : Uses s.config config) (calls : List FakeCall) :
    Step s c r (s₁.books config calls) :=
  ⟨s₁, config, calls, h, huses, rfl⟩

theorem startup_step (s : FakeState) : Step s .startup s.startup.1 s.startup.2 := by
  unfold FakeState.startup
  rcases recorded_cases s .startup .startup with
    ⟨e, config, hfail, he, huses⟩ | ⟨config, hfail, huses⟩ <;> rw [hfail]
  · exact Effect.step (.failed .startup e _ rfl he) huses _
  -- `maybe_fail` leaves the flag alone, so the exchange sees the old one
  · by_cases hs : s.started = true
    · have hif : (s.books config (s.calls ++ [.startup])).started = true := hs
      simp only [hif, if_true]
      exact Effect.step (.startRefused hs) huses _
    · have hif : ¬ (s.books config (s.calls ++ [.startup])).started = true := hs
      simp only [hif]
      exact Effect.step (.started (Bool.eq_false_of_not_eq_true hs)) huses _

theorem listCameras_step (s : FakeState) : Step s .listCameras s.listCameras.1 s.listCameras.2 := by
  unfold FakeState.listCameras
  rcases recorded_cases s .listCameras .listCameras with
    ⟨e, config, hfail, he, huses⟩ | ⟨config, hfail, huses⟩ <;> rw [hfail]
  · exact Effect.step (.failed .listCameras e _ rfl he) huses _
  · exact Effect.step (.quiet .listCameras _ (congrArg Except.ok huses.cameraList)) huses _

theorem openCamera_step (s : FakeState) (id : String) :
    Step s (.openCamera id) (s.openCamera id).1 (s.openCamera id).2 := by
  unfold FakeState.openCamera
  rcases recorded_cases s (.openCamera id) .openCamera with
    ⟨e, config, hfail, he, huses⟩ | ⟨config, hfail, huses⟩ <;> rw [hfail]
  · exact Effect.step (.failed (.openCamera id) e _ rfl he) huses _
  · simp only [FakeState.nextId]
    by_cases hid : s.currentId = 0
    · have hif : (s.books config (s.calls ++ [.openCamera id])).currentId = 0 := hid
      simp only [hif, ne_eq, not_true_eq_false, dif_neg, not_false_eq_true]
      exact Effect.step (.openPanicked id _ hid) huses _
    · have hif : ¬ (s.books config (s.calls ++ [.openCamera id])).currentId = 0 := hid
      simp only [hif, ne_eq, not_false_eq_true, dif_pos]
      exact Effect.step (.opened id hid) huses _

theorem loadSettings_step (s : FakeState) (h : CameraHandle) (path : Path) :
    Step s (.loadSettings h path) (s.loadSettings h path).1 (s.loadSettings h path).2 := by
  unfold FakeState.loadSettings
  rcases recorded_cases s (.loadSettings h path) .loadSettings with
    ⟨e, config, hfail, he, huses⟩ | ⟨config, hfail, huses⟩ <;> rw [hfail]
  · exact Effect.step (.failed (.loadSettings h path) e _ rfl he) huses _
  · exact Effect.step (.quiet (.loadSettings h path) _ rfl) huses _

theorem runFeatureCommand_step (s : FakeState) (h : CameraHandle) (name : String) :
    Step s (.runFeatureCommand h name) (s.runFeatureCommand h name).1
      (s.runFeatureCommand h name).2 := by
  unfold FakeState.runFeatureCommand
  rcases recorded_cases s (.runFeatureCommand h name) .runFeatureCommand with
    ⟨e, config, hfail, he, huses⟩ | ⟨config, hfail, huses⟩ <;> rw [hfail]
  · exact Effect.step (.failed (.runFeatureCommand h name) e _ rfl he) huses _
  · exact Effect.step (.quiet (.runFeatureCommand h name) _ rfl) huses _

theorem payloadSize_step (s : FakeState) (h : CameraHandle) :
    Step s (.payloadSize h) (s.payloadSize h).1 (s.payloadSize h).2 := by
  unfold FakeState.payloadSize
  rcases recorded_cases s (.payloadSize h) .payloadSize with
    ⟨e, config, hfail, he, huses⟩ | ⟨config, hfail, huses⟩ <;> rw [hfail]
  · exact Effect.step (.failed (.payloadSize h) e _ rfl he) huses _
  · exact Effect.step (.quiet (.payloadSize h) _ (congrArg Except.ok huses.payloadSize)) huses _

theorem announceFrame_step (s : FakeState) (h : CameraHandle) (size : UInt32) :
    Step s (.announceFrame h size) (s.announceFrame h size).1 (s.announceFrame h size).2 := by
  unfold FakeState.announceFrame
  rcases recorded_cases s (.announceFrame h size) .announceFrame with
    ⟨e, config, hfail, he, huses⟩ | ⟨config, hfail, huses⟩ <;> rw [hfail]
  · exact Effect.step (.failed (.announceFrame h size) e _ rfl he) huses _
  · exact Effect.step (.announced h size) huses _

theorem captureStart_step (s : FakeState) (h : CameraHandle) :
    Step s (.captureStart h) (s.captureStart h).1 (s.captureStart h).2 := by
  unfold FakeState.captureStart
  rcases recorded_cases s (.captureStart h) .captureStart with
    ⟨e, config, hfail, he, huses⟩ | ⟨config, hfail, huses⟩ <;> rw [hfail]
  · exact Effect.step (.failed (.captureStart h) e _ rfl he) huses _
  · exact Effect.step (.captureStarted h) huses _

theorem queueFrame_step (s : FakeState) (h : CameraHandle) (slot : FrameSlotId)
    (cb : FrameCallbackId) :
    Step s (.queueFrame h slot cb) (s.queueFrame h slot cb).1 (s.queueFrame h slot cb).2 := by
  unfold FakeState.queueFrame
  rcases recorded_cases s (.queueFrame h slot cb) .queueFrame with
    ⟨e, config, hfail, he, huses⟩ | ⟨config, hfail, huses⟩ <;> rw [hfail]
  · exact Effect.step (.failed (.queueFrame h slot cb) e _ rfl he) huses _
  · exact Effect.step (.queued h slot cb) huses _

theorem registerDiscovery_step (s : FakeState) (cb : DiscoveryCallbackId) :
    Step s (.registerDiscovery cb) (s.registerDiscovery cb).1 (s.registerDiscovery cb).2 := by
  unfold FakeState.registerDiscovery
  rcases recorded_cases s (.registerDiscovery cb) .registerDiscovery with
    ⟨e, config, hfail, he, huses⟩ | ⟨config, hfail, huses⟩ <;> rw [hfail]
  · exact Effect.step (.failed (.registerDiscovery cb) e _ rfl he) huses _
  · exact Effect.step (.registered cb) huses _

/-- **The fake makes these steps only.** -/
theorem fakeVmbRuntime_step (s : FakeState) (c : PortCall) :
    Step s c (fakeVmbRuntime s c).1 (fakeVmbRuntime s c).2 := by
  have huses := uses_refl s.config
  cases c with
  | startup => exact startup_step s
  | shutdown => exact Effect.step .stopped huses _
  | listCameras => exact listCameras_step s
  | openCamera id => exact openCamera_step s id
  | closeCamera h => exact Effect.step (.closed h) huses _
  | loadSettings h path => exact loadSettings_step s h path
  | runFeatureCommand h name => exact runFeatureCommand_step s h name
  | payloadSize h => exact payloadSize_step s h
  | announceFrame h size => exact announceFrame_step s h size
  | captureStart h => exact captureStart_step s h
  | queueFrame h slot cb => exact queueFrame_step s h slot cb
  | captureEnd h => exact Effect.step (.captureEnded h) huses _
  | captureQueueFlush h => exact Effect.step (.quiet (.captureQueueFlush h) () trivial) huses _
  | frameRevokeAll h => exact Effect.step (.revoked h) huses _
  | registerDiscovery cb => exact registerDiscovery_step s cb
  | unregisterDiscovery r => exact Effect.step (.unregistered r) huses _
  | installFrameCallback f => exact Effect.step (.installedFrame f) huses _
  | uninstallFrameCallback id => exact Effect.step (.uninstalledFrame id) huses _
  | installDiscoveryCallback f => exact Effect.step (.installedDiscovery f) huses _
  | uninstallDiscoveryCallback id => exact Effect.step (.uninstalledDiscovery id) huses _

end Steps

end Vmb.Fake

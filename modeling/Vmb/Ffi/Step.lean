/-
# Vmb.Ffi.Step -- what one port call does to the adapter

`Step s c evs r s'` lists, once and for all, what the port call `c` can do in state `s`: the SDK
calls it makes with their answers, what it returns and the state it leaves. `dispatch_step` says that
the adapter does nothing else, and every invariant of the adapter is proved from it. Calls that only
talk to the SDK are `quiet`.
-/
import Vmb.Ffi.Runtime

namespace Vmb.Ffi

open Vmb.Lib Vmb.Core Vmb.Sdk

/-! ## The cases -/

/-- An SDK call that concerns no handle, frame or context the adapter keeps. -/
def Quiet : SdkCall → Prop
  | .vmbStartup => True
  | .vmbShutdown => True
  | .vmbCamerasList _ => True
  | .vmbSettingsLoad _ _ => True
  | .vmbFeatureCommandRun _ _ => True
  | .vmbPayloadSizeGet _ => True
  | .vmbCaptureStart _ => True
  | .vmbCaptureEnd _ => True
  | .vmbCaptureQueueFlush _ => True
  | _ => False

/-- An SDK call with its answer. -/
abbrev vmbEvent (c : SdkCall) (r : c.Resp) : Event VmbC := ⟨c, r⟩

/-- The return code of an SDK call. -/
def code : Event VmbC → Int32
  | ⟨.vmbShutdown, _⟩ => 0
  | ⟨.vmbCamerasList _, a⟩ => a.rc
  | ⟨.vmbCameraOpen _ _, a⟩ => a.1
  | ⟨.vmbPayloadSizeGet _, a⟩ => a.1
  | ⟨.vmbFeatureStringGet _ _ _, a⟩ => a.rc
  | ⟨.vmbFeatureEnumGet _ _, a⟩ => a.1
  | ⟨.vmbStartup, rc⟩ => rc
  | ⟨.vmbCameraClose _, rc⟩ => rc
  | ⟨.vmbSettingsLoad _ _, rc⟩ => rc
  | ⟨.vmbFeatureCommandRun _ _, rc⟩ => rc
  | ⟨.vmbFrameAnnounce _ _, rc⟩ => rc
  | ⟨.vmbFrameRevokeAll _, rc⟩ => rc
  | ⟨.vmbCaptureStart _, rc⟩ => rc
  | ⟨.vmbCaptureEnd _, rc⟩ => rc
  | ⟨.vmbCaptureQueueFlush _, rc⟩ => rc
  | ⟨.vmbCaptureFrameQueue _ _ _, rc⟩ => rc
  | ⟨.vmbFeatureInvalidationRegister _ _ _ _, rc⟩ => rc
  | ⟨.vmbFeatureInvalidationUnregister _ _ _, rc⟩ => rc

/-- What a port call that only talks to the SDK makes of the answer to its one SDK call. -/
def Reports : (c : PortCall) → List (Event VmbC) → c.Resp → Prop
  | .listCameras, _, _ => True
  | .loadSettings _ _, [e], r => r = check (code e)
  | .runFeatureCommand _ _, [e], r => r = check (code e)
  | .payloadSize _, [⟨.vmbPayloadSizeGet _, a⟩], r => r = (check a.1).map fun _ => a.2
  | .captureStart _, [e], r => r = check (code e)
  | .captureEnd _, [_], _ => True
  | .captureQueueFlush _, [_], _ => True
  | _, _, _ => False

/-- The method is left before it calls the SDK. -/
def Refuses (s : FfiState) : PortCall → Prop
  | .startup => s.started = true
  | .openCamera id => (0 : UInt8) ∈ bytes id
  | .closeCamera h => s.cameras.lookup h = none
  | .loadSettings h path => s.cameras.lookup h = none ∨ (0 : UInt8) ∈ lossy path
  | .runFeatureCommand h name => s.cameras.lookup h = none ∨ (0 : UInt8) ∈ bytes name
  | .payloadSize h => s.cameras.lookup h = none
  | .announceFrame h _ => s.cameras.lookup h = none
  | .captureStart h => s.cameras.lookup h = none
  | .queueFrame h slot cb => s.cameras.lookup h = none ∨ s.frameCallbacks.lookup cb = none ∨
      s.frames.lookup slot = none
  | .captureEnd h => s.cameras.lookup h = none
  | .captureQueueFlush h => s.cameras.lookup h = none
  | .frameRevokeAll h => s.cameras.lookup h = none
  | .registerDiscovery cb => s.discoveryCallbacks.lookup cb = none
  | .unregisterDiscovery r => s.discoveryRegs.lookup r = none
  | _ => False

/-- The answer of a method that is left before it calls the SDK. -/
def Denies : (c : PortCall) → c.Resp → Prop
  | .startup, r => r = .error .alreadyStarted
  | .openCamera _, r => ∃ context, r = .returned (.error (.invalidString context))
  | .loadSettings _ _, r => ∃ context, r = .error (.invalidString context)
  | .runFeatureCommand _ _, r => ∃ context, r = .error (.invalidString context)
  | .payloadSize _, r => ∃ context, r = .error (.invalidString context)
  | .announceFrame _ _, r => ∃ context, r = .error (.invalidString context)
  | .captureStart _, r => ∃ context, r = .error (.invalidString context)
  | .queueFrame _ _ _, r => ∃ context, r = .error (.invalidString context)
  | .registerDiscovery _, r => ∃ context, r = .error (.invalidString context)
  | _, _ => True

/-- The context an announcement of `size` bytes puts into the table. -/
def announcedBox (s : FfiState) (size : UInt32) : Box TrampolineContext :=
  (TrampolineContext.new s size).1.vmbFrameMutPtr.2

/-- The heap after the two allocations of an announcement. -/
def announcedHeap (s : FfiState) (size : UInt32) : Heap := (TrampolineContext.new s size).2.heap

/-- The name of the discovery feature as the SDK gets it. -/
def discoveryFeature : CString := ⟨bytes FfiState.featureEventCameraDiscovery, by decide⟩

/-- The context behind a queued frame. -/
def queuedBox (box : Box TrampolineContext) (f : FrameCallback) : Box TrampolineContext :=
  (box.setCallback f).vmbFrameMutPtr.2

/-- **What one port call can do.** -/
inductive Step (s : FfiState) : (c : PortCall) → List (Event VmbC) → c.Resp → FfiState → Prop
  /-- Only `STARTED` changes. -/
  | lifecycle (c : PortCall) (evs : List (Event VmbC)) (r : c.Resp) (b : Bool)
      (hc : c = .startup ∨ c = .shutdown)
      (hevs : ∀ e ∈ evs, Quiet e.call) :
      Step s c evs r { s with started := b }
  /-- Nothing changes. -/
  | quiet (c : PortCall) (evs : List (Event VmbC)) (r : c.Resp) (hr : Reports c evs r)
      (hevs : ∀ e ∈ evs, Quiet e.call) : Step s c evs r s
  | refused (c : PortCall) (r : c.Resp) (hc : Refuses s c) (hr : Denies c r) : Step s c [] r s
  | openFailed (id : String) (cId : CString) (rc : Int32) (raw : VmbHandle)
      (hc : CString.new (bytes id) = some cId) (hrc : rc ≠ 0) :
      Step s (.openCamera id) [vmbEvent (.vmbCameraOpen cId vmbAccessModeFull) (rc, raw)]
        (.returned (.error (sdkError rc))) s
  | opened (id : String) (cId : CString) (raw : VmbHandle)
      (hc : CString.new (bytes id) = some cId) (hid : s.currentId ≠ 0) :
      Step s (.openCamera id) [vmbEvent (.vmbCameraOpen cId vmbAccessModeFull) (0, raw)]
        (.returned (.ok ⟨s.currentId, hid⟩))
        { s with counter := s.counter + 1, cameras := s.cameras.insert ⟨s.currentId, hid⟩ raw }
  /-- The identifier counter has wrapped to zero. -/
  | openPanicked (id : String) (cId : CString) (raw : VmbHandle) (m : String)
      (hc : CString.new (bytes id) = some cId) (hid : s.currentId = 0) :
      Step s (.openCamera id) [vmbEvent (.vmbCameraOpen cId vmbAccessModeFull) (0, raw)]
        (.panicked m) { s with counter := s.counter + 1 }
  | closed (h : CameraHandle) (raw : VmbHandle) (rc : Int32) (hraw : s.cameras.lookup h = some raw) :
      Step s (.closeCamera h) [vmbEvent (.vmbCameraClose raw) rc] ()
        { s with cameras := s.cameras.erase h }
  | announceFailed (h : CameraHandle) (size : UInt32) (raw : VmbHandle) (rc : Int32)
      (hraw : s.cameras.lookup h = some raw) (hrc : rc ≠ 0) :
      Step s (.announceFrame h size)
        [vmbEvent (.vmbFrameAnnounce raw (announcedBox s size).addr) rc] (.error (sdkError rc))
        { s with heap := announcedHeap s size }
  | announced (h : CameraHandle) (size : UInt32) (raw : VmbHandle)
      (hraw : s.cameras.lookup h = some raw) :
      Step s (.announceFrame h size)
        [vmbEvent (.vmbFrameAnnounce raw (announcedBox s size).addr) 0] (.ok ⟨s.currentId⟩)
        { s with
          heap := announcedHeap s size
          counter := s.counter + 1
          frames := s.frames.insert ⟨s.currentId⟩ (announcedBox s size) }
  | queued (h : CameraHandle) (slot : FrameSlotId) (cb : FrameCallbackId) (raw : VmbHandle)
      (f : FrameCallback) (box : Box TrampolineContext) (rc : Int32)
      (hraw : s.cameras.lookup h = some raw) (hcb : s.frameCallbacks.lookup cb = some f)
      (hslot : s.frames.lookup slot = some box) :
      Step s (.queueFrame h slot cb)
        [vmbEvent (.vmbCaptureFrameQueue raw box.addr .frameCallbackTrampoline) rc] (check rc)
        { s with frames := s.frames.insert slot (queuedBox box f) }
  | revoked (h : CameraHandle) (raw : VmbHandle) (rc : Int32)
      (hraw : s.cameras.lookup h = some raw) :
      Step s (.frameRevokeAll h) [vmbEvent (.vmbFrameRevokeAll raw) rc] () { s with frames := ∅ }
  | registerFailed (cb : DiscoveryCallbackId) (f : DiscoveryCallback) (rc : Int32)
      (hcb : s.discoveryCallbacks.lookup cb = some f) (hrc : rc ≠ 0) :
      Step s (.registerDiscovery cb)
        [vmbEvent (.vmbFeatureInvalidationRegister gVmbHandle discoveryFeature .discoveryTrampoline
          s.heap.brk) rc] (.error (sdkError rc)) ((s.intoRaw ⟨f⟩).2.fromRaw s.heap.brk)
  | registered (cb : DiscoveryCallbackId) (f : DiscoveryCallback)
      (hcb : s.discoveryCallbacks.lookup cb = some f) :
      Step s (.registerDiscovery cb)
        [vmbEvent (.vmbFeatureInvalidationRegister gVmbHandle discoveryFeature .discoveryTrampoline
          s.heap.brk) 0] (.ok ⟨s.currentId⟩)
        { (s.intoRaw ⟨f⟩).2 with
          counter := s.counter + 1
          discoveryRegs :=
            s.discoveryRegs.insert ⟨s.currentId⟩ ⟨s.heap.brk, discoveryFeature⟩ }
  | unregistered (r : DiscoveryRegistrationHandle) (reg : DiscoveryRegState) (rc : Int32)
      (hreg : s.discoveryRegs.lookup r = some reg) :
      Step s (.unregisterDiscovery r)
        [vmbEvent (.vmbFeatureInvalidationUnregister gVmbHandle reg.feature .discoveryTrampoline) rc]
        () ({ s with discoveryRegs := s.discoveryRegs.erase r }.fromRaw reg.ctxPtr)
  | installedFrame (f : FrameCallback) :
      Step s (.installFrameCallback f) [] ⟨s.currentId⟩ (s.installFrameCallback f).2
  | uninstalledFrame (id : FrameCallbackId) :
      Step s (.uninstallFrameCallback id) [] () (s.uninstallFrameCallback id)
  | installedDiscovery (f : DiscoveryCallback) :
      Step s (.installDiscoveryCallback f) [] ⟨s.currentId⟩ (s.installDiscoveryCallback f).2
  | uninstalledDiscovery (id : DiscoveryCallbackId) :
      Step s (.uninstallDiscoveryCallback id) [] () (s.uninstallDiscoveryCallback id)

/-- Identifiers are only issued. -/
theorem Step.counter_le {s s' : FfiState} {c : PortCall} {evs : List (Event VmbC)} {r : c.Resp}
    (h : Step s c evs r s') : s.counter ≤ s'.counter := by
  cases h <;>
    simp [FfiState.fromRaw, FfiState.intoRaw, FfiState.alloc,
      FfiState.installFrameCallback, FfiState.uninstallFrameCallback, FfiState.nextU64,
      FfiState.installDiscoveryCallback, FfiState.uninstallDiscoveryCallback]

/-- A call of a `VmbSystem` changes `STARTED` only. -/
theorem Step.system {s s' : FfiState} {c : PortCall} {evs : List (Event VmbC)} {r : c.Resp}
    (h : Step s c evs r s')
    (hc : c = .startup ∨ c = .listCameras ∨ c = .shutdown) :
    (∃ b, s' = { s with started := b }) ∧ ∀ e ∈ evs, Quiet e.call := by
  cases h with
  | lifecycle c evs r b hc' hevs => exact ⟨⟨b, rfl⟩, hevs⟩
  | quiet c evs r hr hevs => exact ⟨⟨s.started, rfl⟩, hevs⟩
  | refused c r hc' hr => exact ⟨⟨s.started, rfl⟩, by simp⟩
  | _ => simp at hc

/-! ## The adapter makes these steps only -/

/-- The error of `resolve_camera`. -/
def unknownCamera : VmbError := .invalidString "unknown camera handle"

namespace FfiState

variable {s s' : FfiState} {evs : List (Event VmbC)}

theorem newDiscoveryFeature :
    CString.new (bytes featureEventCameraDiscovery) = some discoveryFeature :=
  CString.new_eq_some _

/-- The only way a check succeeds. -/
theorem check_ok {rc : Int32} (h : check rc = .ok ()) : rc = 0 := by
  by_contra hne
  simp [check, hne] at h

theorem check_error {rc : Int32} {e : VmbError} (h : check rc = .error e) :
    rc ≠ 0 ∧ e = sdkError rc := by
  unfold check at h
  split at h
  · cases h
  · exact ⟨‹_›, by simpa using h.symm⟩

/-- `startup` with its atomic steps run back to back. -/
theorem sequentially_startup (s : FfiState) :
    sequentially Ffi.startup s =
      if s.started then .done (.error .alreadyStarted, s)
      else .call (S := VmbC) .vmbStartup fun rc =>
        .done (check rc, { s with started := decide (check rc = .ok ()) }) := by
  show (if s.started then _ else _) = _
  split
  · rfl
  · refine congrArg (Prog.call (S := VmbC) .vmbStartup) (funext fun rc => ?_)
    dsimp only [Prog.bind]
    rcases hrc : check rc with e | ⟨⟨⟩⟩
    · rfl
    · rfl

/-- `shutdown` with its atomic steps run back to back. -/
theorem sequentially_shutdown (s : FfiState) :
    sequentially Ffi.shutdown s =
      if s.started then .call (S := VmbC) .vmbShutdown fun _ => .done ((), { s with started := false })
      else .done ((), { s with started := false }) := by
  show sequentially (if s.started then _ else _) _ = _
  split
  · rfl
  · rfl

/-- A method that is left before it calls the SDK. -/
theorem refusal_step {c : PortCall} {r a : c.Resp} (hc : Refuses s c) (ha : Denies c a)
    (hruns : (pure (a, s) : SdkM (c.Resp × FfiState)).Runs evs (r, s')) : Step s c evs r s' := by
  obtain ⟨rfl, hruns⟩ := hruns
  cases hruns
  exact .refused c _ hc ha

/-- A method that makes one quiet SDK call and reports the answer. -/
theorem quiet_step {c : PortCall} {r : c.Resp} {call : SdkCall} {report : call.Resp → c.Resp}
    (hruns : (vmb call >>= fun a => pure (report a, s)).Runs evs (r, s')) (hquiet : Quiet call)
    (hreport : ∀ a, Reports c [⟨call, a⟩] (report a)) : Step s c evs r s' := by
  obtain ⟨a, t, rfl, rfl, hruns⟩ := hruns
  cases hruns
  exact .quiet c _ _ (hreport a) (List.forall_mem_singleton.mpr hquiet)

theorem startup_step {r : Result Unit} (h : (sequentially Ffi.startup s).Runs evs (r, s')) :
    Step s .startup evs r s' := by
  rw [sequentially_startup] at h
  split at h
  · exact refusal_step ‹_› rfl h
  · obtain ⟨rc, t, rfl, rfl, h⟩ := h
    cases h
    exact .lifecycle .startup _ _ _ (Or.inl rfl) (by simp [Quiet])

theorem shutdown_step {r : Unit} (h : (sequentially Ffi.shutdown s).Runs evs (r, s')) :
    Step s .shutdown evs r s' := by
  rw [sequentially_shutdown] at h
  split at h
  · obtain ⟨rc, t, rfl, rfl, h⟩ := h
    cases h
    exact .lifecycle .shutdown _ _ false (Or.inr rfl) (by simp [Quiet])
  · obtain ⟨rfl, h⟩ := h
    cases h
    exact .lifecycle .shutdown _ _ false (Or.inr rfl) (by simp [Quiet])

theorem listCameras_step {r : Result (List CameraInfo)} (h : s.listCameras.Runs evs (r, s')) :
    Step s .listCameras evs r s' := by
  replace h := runs_vmb_bind.mp h
  obtain ⟨query, t, rfl, h⟩ := h
  rcases hq : check query.rc with e | ⟨⟨⟩⟩ <;> rw [hq] at h
  · obtain ⟨rfl, h⟩ := h
    cases h
    exact .quiet .listCameras _ _ trivial (by simp [Quiet])
  · by_cases hn : query.numFound = 0
    · simp only [hn, if_true] at h
      obtain ⟨rfl, h⟩ := h
      cases h
      exact .quiet .listCameras _ _ trivial (by simp [Quiet])
    · simp only [hn, if_false] at h
      replace h := runs_vmb_bind.mp h
      obtain ⟨answer, t, rfl, h⟩ := h
      rcases ha : check answer.rc with e | ⟨⟨⟩⟩ <;> simp only [ha] at h <;>
        obtain ⟨rfl, h⟩ := h <;> cases h
      · exact .quiet .listCameras _ _ trivial (by simp [Quiet])
      · exact .quiet .listCameras _ _ trivial (by simp [Quiet])

theorem openCamera_step {id : String} {r : Exit (Result CameraHandle)}
    (h : (s.openCamera id).Runs evs (r, s')) : Step s (.openCamera id) evs r s' := by
  unfold openCamera at h
  rcases hid : CString.new (bytes id) with - | cId
  · rw [hid] at h
    exact refusal_step (CString.new_eq_none.mp hid) ⟨_, rfl⟩ h
  · rw [hid] at h
    replace h := runs_vmb_bind.mp h
    obtain ⟨⟨rc, raw⟩, t, rfl, h⟩ := h
    rcases hrc : check rc with e | ⟨⟨⟩⟩ <;> simp only [hrc] at h
    · obtain ⟨rfl, h⟩ := h
      cases h
      obtain ⟨hne, rfl⟩ := check_error hrc
      exact .openFailed id cId rc raw hid hne
    · obtain rfl := check_ok hrc
      simp only [nextId] at h
      by_cases hn : s.currentId = 0
      · simp only [hn, ne_eq, not_true_eq_false, dif_neg, not_false_eq_true] at h
        obtain ⟨rfl, h⟩ := h
        cases h
        exact .openPanicked id cId raw _ hid hn
      · simp only [ne_eq, hn, not_false_eq_true, dif_pos] at h
        obtain ⟨rfl, h⟩ := h
        cases h
        exact .opened id cId raw hid hn

theorem closeCamera_step {h : CameraHandle} {r : Unit}
    (hruns : (s.closeCamera h).Runs evs (r, s')) : Step s (.closeCamera h) evs r s' := by
  unfold closeCamera at hruns
  rcases hraw : s.cameras.lookup h with - | raw
  · rw [hraw] at hruns
    exact refusal_step hraw trivial hruns
  · rw [hraw] at hruns
    obtain ⟨rc, t, rfl, rfl, hruns⟩ := hruns
    cases hruns
    exact .closed h raw rc hraw

theorem resolveCamera_ok {h : CameraHandle} {raw : VmbHandle} (hraw : s.cameras.lookup h = some raw) :
    s.resolveCamera h = .ok raw := by
  unfold resolveCamera
  rw [hraw]

theorem resolveCamera_unknown {h : CameraHandle} (hnone : s.cameras.lookup h = none) :
    s.resolveCamera h = .error unknownCamera := by
  unfold resolveCamera
  rw [hnone]
  rfl

theorem resolveCamera_cases (s : FfiState) (h : CameraHandle) :
    (s.cameras.lookup h = none ∧ s.resolveCamera h = .error unknownCamera) ∨
      ∃ raw, s.cameras.lookup h = some raw ∧ s.resolveCamera h = .ok raw := by
  rcases hraw : s.cameras.lookup h with - | raw
  · exact Or.inl ⟨rfl, resolveCamera_unknown hraw⟩
  · exact Or.inr ⟨raw, rfl, resolveCamera_ok hraw⟩

theorem loadSettings_step {h : CameraHandle} {path : Path} {r : Result Unit}
    (hruns : (s.loadSettings h path).Runs evs (r, s')) : Step s (.loadSettings h path) evs r s' := by
  unfold loadSettings at hruns
  rcases s.resolveCamera_cases h with ⟨hnone, hres⟩ | ⟨raw, -, hres⟩ <;> rw [hres] at hruns
  · exact refusal_step (Or.inl hnone) ⟨_, rfl⟩ hruns
  · rcases hc : CString.new (lossy path) with - | cPath <;> rw [hc] at hruns
    · exact refusal_step (Or.inr (CString.new_eq_none.mp hc)) ⟨_, rfl⟩ hruns
    · exact quiet_step hruns trivial fun _ => rfl

theorem runFeatureCommand_step {h : CameraHandle} {name : String} {r : Result Unit}
    (hruns : (s.runFeatureCommand h name).Runs evs (r, s')) :
    Step s (.runFeatureCommand h name) evs r s' := by
  unfold runFeatureCommand at hruns
  rcases s.resolveCamera_cases h with ⟨hnone, hres⟩ | ⟨raw, -, hres⟩ <;> rw [hres] at hruns
  · exact refusal_step (Or.inl hnone) ⟨_, rfl⟩ hruns
  · rcases hc : CString.new (bytes name) with - | cmd <;> rw [hc] at hruns
    · exact refusal_step (Or.inr (CString.new_eq_none.mp hc)) ⟨_, rfl⟩ hruns
    · exact quiet_step hruns trivial fun _ => rfl

theorem payloadSize_step {h : CameraHandle} {r : Result UInt32}
    (hruns : (s.payloadSize h).Runs evs (r, s')) : Step s (.payloadSize h) evs r s' := by
  unfold payloadSize at hruns
  rcases s.resolveCamera_cases h with ⟨hnone, hres⟩ | ⟨raw, -, hres⟩ <;> rw [hres] at hruns
  · exact refusal_step hnone ⟨_, rfl⟩ hruns
  · replace hruns := runs_vmb_bind.mp hruns
    obtain ⟨⟨rc, payload⟩, t, rfl, hruns⟩ := hruns
    rcases hrc : check rc with e | ⟨⟨⟩⟩ <;> simp only [hrc] at hruns <;>
      obtain ⟨rfl, hruns⟩ := hruns <;> cases hruns
    · exact .quiet (.payloadSize h) _ _ (by simp [Reports, hrc, Except.map]) (by simp [Quiet])
    · exact .quiet (.payloadSize h) _ _ (by simp [Reports, hrc, Except.map]) (by simp [Quiet])

theorem announceFrame_step {h : CameraHandle} {size : UInt32} {r : Result FrameSlotId}
    (hruns : (s.announceFrame h size).Runs evs (r, s')) :
    Step s (.announceFrame h size) evs r s' := by
  unfold announceFrame at hruns
  rcases s.resolveCamera_cases h with ⟨hnone, hres⟩ | ⟨raw, hraw, hres⟩ <;> rw [hres] at hruns
  · exact refusal_step hnone ⟨_, rfl⟩ hruns
  · replace hruns := runs_vmb_bind.mp hruns
    obtain ⟨rc, t, rfl, hruns⟩ := hruns
    rcases hrc : check rc with e | ⟨⟨⟩⟩ <;> simp only [hrc] at hruns
    · obtain ⟨rfl, hruns⟩ := hruns
      cases hruns
      obtain ⟨hne, rfl⟩ := check_error hrc
      exact .announceFailed h size raw rc hraw hne
    · obtain rfl := check_ok hrc
      obtain ⟨rfl, hruns⟩ := hruns
      cases hruns
      exact .announced h size raw hraw

theorem captureStart_step {h : CameraHandle} {r : Result Unit}
    (hruns : (s.captureStart h).Runs evs (r, s')) : Step s (.captureStart h) evs r s' := by
  unfold captureStart at hruns
  rcases s.resolveCamera_cases h with ⟨hnone, hres⟩ | ⟨raw, -, hres⟩ <;> rw [hres] at hruns
  · exact refusal_step hnone ⟨_, rfl⟩ hruns
  · exact quiet_step hruns trivial fun _ => rfl

theorem queueFrame_step {h : CameraHandle} {slot : FrameSlotId} {cb : FrameCallbackId}
    {r : Result Unit} (hruns : (s.queueFrame h slot cb).Runs evs (r, s')) :
    Step s (.queueFrame h slot cb) evs r s' := by
  unfold queueFrame at hruns
  rcases s.resolveCamera_cases h with ⟨hnone, hres⟩ | ⟨raw, hraw, hres⟩ <;> rw [hres] at hruns
  · exact refusal_step (Or.inl hnone) ⟨_, rfl⟩ hruns
  · rcases hcb : s.frameCallbacks.lookup cb with - | f <;> rw [hcb] at hruns
    · exact refusal_step (Or.inr (Or.inl hcb)) ⟨_, rfl⟩ hruns
    · rcases hslot : s.frames.lookup slot with - | box <;> rw [hslot] at hruns
      · exact refusal_step (Or.inr (Or.inr hslot)) ⟨_, rfl⟩ hruns
      · obtain ⟨rc, t, rfl, rfl, hruns⟩ := hruns
        cases hruns
        exact .queued h slot cb raw f box rc hraw hcb hslot

theorem captureEnd_step {h : CameraHandle} {r : Unit}
    (hruns : (s.captureEnd h).Runs evs (r, s')) : Step s (.captureEnd h) evs r s' := by
  unfold captureEnd at hruns
  rcases s.resolveCamera_cases h with ⟨hnone, hres⟩ | ⟨raw, -, hres⟩ <;> rw [hres] at hruns
  · exact refusal_step hnone trivial hruns
  · exact quiet_step hruns trivial fun _ => trivial

theorem captureQueueFlush_step {h : CameraHandle} {r : Unit}
    (hruns : (s.captureQueueFlush h).Runs evs (r, s')) :
    Step s (.captureQueueFlush h) evs r s' := by
  unfold captureQueueFlush at hruns
  rcases s.resolveCamera_cases h with ⟨hnone, hres⟩ | ⟨raw, -, hres⟩ <;> rw [hres] at hruns
  · exact refusal_step hnone trivial hruns
  · exact quiet_step hruns trivial fun _ => trivial

theorem frameRevokeAll_step {h : CameraHandle} {r : Unit}
    (hruns : (s.frameRevokeAll h).Runs evs (r, s')) : Step s (.frameRevokeAll h) evs r s' := by
  unfold frameRevokeAll at hruns
  rcases s.resolveCamera_cases h with ⟨hnone, hres⟩ | ⟨raw, hraw, hres⟩ <;> rw [hres] at hruns
  · exact refusal_step hnone trivial hruns
  · obtain ⟨rc, t, rfl, rfl, hruns⟩ := hruns
    cases hruns
    exact .revoked h raw rc hraw

theorem registerDiscovery_step {cb : DiscoveryCallbackId} {r : Result DiscoveryRegistrationHandle}
    (hruns : (s.registerDiscovery cb).Runs evs (r, s')) :
    Step s (.registerDiscovery cb) evs r s' := by
  unfold registerDiscovery at hruns
  rcases hcb : s.discoveryCallbacks.lookup cb with - | f <;> rw [hcb] at hruns
  · exact refusal_step hcb ⟨_, rfl⟩ hruns
  · rw [newDiscoveryFeature] at hruns
    replace hruns := runs_vmb_bind.mp hruns
    obtain ⟨rc, t, rfl, hruns⟩ := hruns
    rcases hrc : check rc with e | ⟨⟨⟩⟩ <;> simp only [hrc] at hruns
    · obtain ⟨rfl, hruns⟩ := hruns
      cases hruns
      obtain ⟨hne, rfl⟩ := check_error hrc
      exact .registerFailed cb f rc hcb hne
    · obtain rfl := check_ok hrc
      obtain ⟨rfl, hruns⟩ := hruns
      cases hruns
      exact .registered cb f hcb

theorem unregisterDiscovery_step {r : DiscoveryRegistrationHandle} {u : Unit}
    (hruns : (s.unregisterDiscovery r).Runs evs (u, s')) :
    Step s (.unregisterDiscovery r) evs u s' := by
  unfold unregisterDiscovery at hruns
  rcases hreg : s.discoveryRegs.lookup r with - | reg <;> rw [hreg] at hruns
  · exact refusal_step hreg trivial hruns
  · obtain ⟨rc, t, rfl, rfl, hruns⟩ := hruns
    cases hruns
    exact .unregistered r reg rc hreg

/-- **The adapter makes these steps only.** -/
theorem dispatch_step {c : PortCall} {r : c.Resp} (h : (s.dispatch c).Runs evs (r, s')) :
    Step s c evs r s' := by
  cases c with
  | startup => exact startup_step h
  | shutdown => exact shutdown_step h
  | listCameras => exact listCameras_step h
  | openCamera id => exact openCamera_step h
  | closeCamera h' => exact closeCamera_step h
  | loadSettings h' path => exact loadSettings_step h
  | runFeatureCommand h' name => exact runFeatureCommand_step h
  | payloadSize h' => exact payloadSize_step h
  | announceFrame h' size => exact announceFrame_step h
  | captureStart h' => exact captureStart_step h
  | queueFrame h' slot cb => exact queueFrame_step h
  | captureEnd h' => exact captureEnd_step h
  | captureQueueFlush h' => exact captureQueueFlush_step h
  | frameRevokeAll h' => exact frameRevokeAll_step h
  | registerDiscovery cb => exact registerDiscovery_step h
  | unregisterDiscovery r' => exact unregisterDiscovery_step h
  | installFrameCallback f =>
      obtain ⟨rfl, h⟩ := h
      cases h
      exact .installedFrame f
  | uninstallFrameCallback id =>
      obtain ⟨rfl, h⟩ := h
      cases h
      exact .uninstalledFrame id
  | installDiscoveryCallback f =>
      obtain ⟨rfl, h⟩ := h
      cases h
      exact .installedDiscovery f
  | uninstallDiscoveryCallback id =>
      obtain ⟨rfl, h⟩ := h
      cases h
      exact .uninstalledDiscovery id

end FfiState

/-- The state of the adapter over a logged SDK. -/
abbrev LoggedState (τ : Type) := FfiState × (τ × List (Event VmbC))

/-- The adapter over a logged SDK before the first call. -/
def fresh {τ : Type} (t : τ) : LoggedState τ := (.new, (t, []))

/-- A port call on the adapter over a logged SDK is a step, and its SDK calls are appended to the
log. -/
theorem vmbFfiRuntime_step {τ : Type} (api : VmbApi τ) (s : FfiState) (t : τ)
    (l : List (Event VmbC)) (c : PortCall) :
    ∃ evs, Step s c evs (vmbFfiRuntime api.logged (s, (t, l)) c).1
        (vmbFfiRuntime api.logged (s, (t, l)) c).2.1 ∧
      (vmbFfiRuntime api.logged (s, (t, l)) c).2.2.2 = l ++ evs ∧
      ∀ e ∈ evs, ∃ t', e.resp = (api t' e.call).1 := by
  obtain ⟨evs, hruns, hlog, hans⟩ := Prog.run_logged_runs api (s.dispatch c) t l
  exact ⟨evs, FfiState.dispatch_step hruns, hlog, hans⟩

/-- The SDK calls a port call makes. -/
def sdkCalls {τ : Type} (api : VmbApi τ) (s : FfiState × τ) (c : PortCall) : List (Event VmbC) :=
  ((s.1.dispatch c).history api s.2).map Prod.snd

theorem vmbFfiRuntime_sdkCalls {τ : Type} (api : VmbApi τ) (s : FfiState × τ) (c : PortCall) :
    Step s.1 c (sdkCalls api s c) (vmbFfiRuntime api s c).1 (vmbFfiRuntime api s c).2.1 :=
  FfiState.dispatch_step (Prog.runs_history api (s.1.dispatch c) s.2)

/-- Opening a camera passes its id to the SDK. -/
theorem sdkCalls_openCamera {τ : Type} (api : VmbApi τ) (s : FfiState) (t : τ) {id : String}
    {cId : CString} (h : CString.new (bytes id) = some cId) :
    (sdkCalls api (s, t) (.openCamera id)).map Event.call = [.vmbCameraOpen cId vmbAccessModeFull] := by
  show (((s.openCamera id).history api t).map Prod.snd).map Event.call = _
  unfold FfiState.openCamera
  rw [h]
  refine congrArg (List.cons (SdkCall.vmbCameraOpen cId vmbAccessModeFull)) ?_
  dsimp only [Prog.bind]
  rcases check (api t (.vmbCameraOpen cId vmbAccessModeFull)).1.1 with e | ⟨⟩
  · rfl
  · rcases s.nextId with ⟨id | m, s'⟩ <;> rfl

end Vmb.Ffi

/-
# Vmb.Ffi.Handles -- camera handles and the raw handles behind them

The port names an open camera by a `CameraHandle`; the SDK names it by a raw handle, and a raw handle
that has been closed is a dangling pointer. The table `cameras` stands between the two. A run of
port calls is read as a list of `Turn`s, each a port call with the SDK calls it made, and a
`CameraHandle` is `LiveCamera` with its raw handle from the `open_camera` that issued it until it is closed
or issued again. `handles_safe` says that the table is exactly that relation, so that nothing but the
raw handle of a live `CameraHandle` reaches the SDK, whatever handles the callers make up.

The one thing the SDK has to promise is that `VmbCameraOpen` does not hand out a raw handle that is
open already (`OpensFresh`).
-/
import Vmb.Ffi.Step
import Vmb.Lib.Since
import Vmb.Lib.Tracks

namespace Vmb.Ffi

open Vmb.Lib Vmb.Core Vmb.Sdk

/-! ## The handles of a call -/

/-- The camera handle a port call names. -/
def namedCamera : PortCall → Option CameraHandle
  | .closeCamera h => some h
  | .loadSettings h _ => some h
  | .runFeatureCommand h _ => some h
  | .payloadSize h => some h
  | .announceFrame h _ => some h
  | .captureStart h => some h
  | .queueFrame h _ _ => some h
  | .captureEnd h => some h
  | .captureQueueFlush h => some h
  | .frameRevokeAll h => some h
  | _ => none

/-- The raw camera handle an SDK call is given. -/
def rawCamera : SdkCall → Option VmbHandle
  | .vmbCameraClose raw => some raw
  | .vmbSettingsLoad raw _ => some raw
  | .vmbFeatureCommandRun raw _ => some raw
  | .vmbPayloadSizeGet raw => some raw
  | .vmbFrameAnnounce raw _ => some raw
  | .vmbFrameRevokeAll raw => some raw
  | .vmbCaptureStart raw => some raw
  | .vmbCaptureEnd raw => some raw
  | .vmbCaptureQueueFlush raw => some raw
  | .vmbCaptureFrameQueue raw _ _ => some raw
  | _ => none

/-- The calls that do nothing on an unknown handle. -/
def bestEffort : PortCall → Bool
  | .closeCamera _ => true
  | .captureEnd _ => true
  | .captureQueueFlush _ => true
  | .frameRevokeAll _ => true
  | _ => false

/-- The SDK call is given no other raw camera handle than the one of `h`. -/
def Resolved (s : FfiState) (c : PortCall) (call : SdkCall) : Prop :=
  ∀ raw, rawCamera call = some raw → ∃ h, namedCamera c = some h ∧ s.cameras.lookup h = some raw

namespace FfiState

variable {s : FfiState}

/-- A method that is left without an SDK call. -/
theorem dispatch_of_unknown {c : PortCall} {h : CameraHandle} (hc : namedCamera c = some h)
    (hnone : s.cameras.lookup h = none) :
    ∃ r, s.dispatch c = .done (r, s) ∧ (bestEffort c = true ∨ Fails unknownCamera c r) := by
  have hres := resolveCamera_unknown hnone
  cases c with
  | closeCamera h' =>
      obtain rfl : h' = h := Option.some.inj hc
      refine ⟨(), ?_, Or.inl rfl⟩
      simp only [dispatch, closeCamera, hnone, Prog.pure_eq_done]
  | loadSettings h' path =>
      obtain rfl : h' = h := Option.some.inj hc
      refine ⟨.error unknownCamera, ?_, Or.inr rfl⟩
      simp only [dispatch, loadSettings, hres, Prog.pure_eq_done]
  | runFeatureCommand h' name =>
      obtain rfl : h' = h := Option.some.inj hc
      refine ⟨.error unknownCamera, ?_, Or.inr rfl⟩
      simp only [dispatch, runFeatureCommand, hres, Prog.pure_eq_done]
  | payloadSize h' =>
      obtain rfl : h' = h := Option.some.inj hc
      refine ⟨.error unknownCamera, ?_, Or.inr rfl⟩
      simp only [dispatch, payloadSize, hres, Prog.pure_eq_done]
  | announceFrame h' size =>
      obtain rfl : h' = h := Option.some.inj hc
      refine ⟨.error unknownCamera, ?_, Or.inr rfl⟩
      simp only [dispatch, announceFrame, hres, Prog.pure_eq_done]
  | captureStart h' =>
      obtain rfl : h' = h := Option.some.inj hc
      refine ⟨.error unknownCamera, ?_, Or.inr rfl⟩
      simp only [dispatch, captureStart, hres, Prog.pure_eq_done]
  | queueFrame h' slot cb =>
      obtain rfl : h' = h := Option.some.inj hc
      refine ⟨.error unknownCamera, ?_, Or.inr rfl⟩
      simp only [dispatch, queueFrame, hres, Prog.pure_eq_done]
  | captureEnd h' =>
      obtain rfl : h' = h := Option.some.inj hc
      refine ⟨(), ?_, Or.inl rfl⟩
      simp only [dispatch, captureEnd, hres, Prog.pure_eq_done]
  | captureQueueFlush h' =>
      obtain rfl : h' = h := Option.some.inj hc
      refine ⟨(), ?_, Or.inl rfl⟩
      simp only [dispatch, captureQueueFlush, hres, Prog.pure_eq_done]
  | frameRevokeAll h' =>
      obtain rfl : h' = h := Option.some.inj hc
      refine ⟨(), ?_, Or.inl rfl⟩
      simp only [dispatch, frameRevokeAll, hres, Prog.pure_eq_done]
  | _ => cases hc

/-- A method that names no camera gives the SDK no raw camera handle. -/
theorem dispatch_of_unnamed {c : PortCall} (hc : namedCamera c = none) :
    (s.dispatch c).CallsOnly fun call => rawCamera call = none := by
  cases c with
  | startup =>
      show (sequentially Ffi.startup s).CallsOnly _
      rw [sequentially_startup]
      split
      · trivial
      · exact ⟨rfl, fun _ => trivial⟩
  | shutdown =>
      show (sequentially Ffi.shutdown s).CallsOnly _
      rw [sequentially_shutdown]
      split
      · exact ⟨rfl, fun _ => trivial⟩
      · trivial
  | listCameras =>
      refine ⟨rfl, fun query => ?_⟩
      dsimp only [Prog.bind]
      rcases check query.rc with e | ⟨⟨⟩⟩
      · trivial
      · by_cases hn : query.numFound = 0
        · simp only [hn, if_true]
          trivial
        · simp only [hn, if_false]
          refine ⟨rfl, fun answer => ?_⟩
          dsimp only [Prog.bind]
          rcases check answer.rc with e | ⟨⟨⟩⟩ <;> trivial
  | openCamera id =>
      show (s.openCamera id).CallsOnly _
      unfold openCamera
      rcases CString.new (bytes id) with - | cId
      · trivial
      · refine ⟨rfl, fun answer => ?_⟩
        obtain ⟨rc, raw⟩ := answer
        dsimp only [Prog.bind]
        rcases check rc with e | ⟨⟨⟩⟩
        · trivial
        · dsimp only
          rcases s.nextId with ⟨r | m, s'⟩ <;> trivial
  | registerDiscovery cb =>
      show (s.registerDiscovery cb).CallsOnly _
      unfold registerDiscovery
      rcases s.discoveryCallbacks.lookup cb with - | f
      · trivial
      · rw [newDiscoveryFeature]
        refine ⟨rfl, fun rc => ?_⟩
        dsimp only [Prog.bind]
        rcases check rc with e | ⟨⟨⟩⟩ <;> trivial
  | unregisterDiscovery r =>
      show (s.unregisterDiscovery r).CallsOnly _
      unfold unregisterDiscovery
      rcases s.discoveryRegs.lookup r with - | reg
      · trivial
      · exact ⟨rfl, fun _ => trivial⟩
  | installFrameCallback f => trivial
  | uninstallFrameCallback id => trivial
  | installDiscoveryCallback f => trivial
  | uninstallDiscoveryCallback id => trivial
  | _ => cases hc

/-- A method on an open camera gives the SDK the raw handle of that camera in all its calls. -/
theorem dispatch_of_known {c : PortCall} {h : CameraHandle} {raw : VmbHandle}
    (hc : namedCamera c = some h) (hraw : s.cameras.lookup h = some raw) :
    (s.dispatch c).CallsOnly fun call => rawCamera call = some raw := by
  have hres := resolveCamera_ok hraw
  cases c with
  | closeCamera h' =>
      obtain rfl : h' = h := Option.some.inj hc
      show (s.closeCamera h').CallsOnly _
      unfold closeCamera
      rw [hraw]
      exact ⟨rfl, fun _ => trivial⟩
  | loadSettings h' path =>
      obtain rfl : h' = h := Option.some.inj hc
      show (s.loadSettings h' path).CallsOnly _
      unfold loadSettings
      rw [hres]
      dsimp only
      rcases CString.new (lossy path) with - | cPath
      · trivial
      · exact ⟨rfl, fun _ => trivial⟩
  | runFeatureCommand h' name =>
      obtain rfl : h' = h := Option.some.inj hc
      show (s.runFeatureCommand h' name).CallsOnly _
      unfold runFeatureCommand
      rw [hres]
      dsimp only
      rcases CString.new (bytes name) with - | cmd
      · trivial
      · exact ⟨rfl, fun _ => trivial⟩
  | payloadSize h' =>
      obtain rfl : h' = h := Option.some.inj hc
      show (s.payloadSize h').CallsOnly _
      unfold payloadSize
      rw [hres]
      refine ⟨rfl, fun answer => ?_⟩
      obtain ⟨rc, payload⟩ := answer
      dsimp only [Prog.bind]
      rcases check rc with e | ⟨⟨⟩⟩ <;> trivial
  | announceFrame h' size =>
      obtain rfl : h' = h := Option.some.inj hc
      show (s.announceFrame h' size).CallsOnly _
      unfold announceFrame
      rw [hres]
      refine ⟨rfl, fun rc => ?_⟩
      dsimp only [Prog.bind]
      rcases check rc with e | ⟨⟨⟩⟩ <;> trivial
  | captureStart h' =>
      obtain rfl : h' = h := Option.some.inj hc
      show (s.captureStart h').CallsOnly _
      unfold captureStart
      rw [hres]
      exact ⟨rfl, fun _ => trivial⟩
  | queueFrame h' slot cb =>
      obtain rfl : h' = h := Option.some.inj hc
      show (s.queueFrame h' slot cb).CallsOnly _
      unfold queueFrame
      rw [hres]
      dsimp only
      rcases s.frameCallbacks.lookup cb with - | f
      · trivial
      · dsimp only
        rcases s.frames.lookup slot with - | box
        · trivial
        · exact ⟨rfl, fun _ => trivial⟩
  | captureEnd h' =>
      obtain rfl : h' = h := Option.some.inj hc
      show (s.captureEnd h').CallsOnly _
      unfold captureEnd
      rw [hres]
      exact ⟨rfl, fun _ => trivial⟩
  | captureQueueFlush h' =>
      obtain rfl : h' = h := Option.some.inj hc
      show (s.captureQueueFlush h').CallsOnly _
      unfold captureQueueFlush
      rw [hres]
      exact ⟨rfl, fun _ => trivial⟩
  | frameRevokeAll h' =>
      obtain rfl : h' = h := Option.some.inj hc
      show (s.frameRevokeAll h').CallsOnly _
      unfold frameRevokeAll
      rw [hres]
      exact ⟨rfl, fun _ => trivial⟩
  | _ => cases hc

/-- **A port call gives the SDK the raw handle of the camera it names**, and no other. -/
theorem dispatch_resolved (s : FfiState) (c : PortCall) : (s.dispatch c).CallsOnly (Resolved s c) := by
  rcases hc : namedCamera c with - | h
  · apply (dispatch_of_unnamed hc).mono
    intro call hnone raw hraw
    rw [hnone] at hraw
    cases hraw
  · rcases hraw : s.cameras.lookup h with - | raw
    · obtain ⟨r, hdone, -⟩ := dispatch_of_unknown hc hraw
      rw [hdone]
      trivial
    · apply (dispatch_of_known hc hraw).mono
      intro call hcall raw' hraw'
      obtain rfl : raw = raw' := Option.some.inj (hcall.symm.trans hraw')
      exact ⟨h, hc, hraw⟩

end FfiState

/-! ## Turns -/

/-- A port call of a run: the state it was made in, its answer, the SDK calls it made, and the state
it left. -/
structure Turn where
  before : FfiState
  event : Event Port
  calls : List (Event VmbC)
  after : FfiState

variable {τ : Type}

/-- The turn of a port call in a run. -/
def turnOf (api : VmbApi τ) (x : (FfiState × τ) × Event Port) : Turn where
  before := x.1.1
  event := x.2
  calls := sdkCalls api x.1 x.2.call
  after := (vmbFfiRuntime api x.1 x.2.call).2.1

/-- The turns of a client, from the first call on. -/
def turns {α : Type} (api : VmbApi τ) (t : τ) (p : PortM α) : List Turn :=
  (p.history (vmbFfiRuntime api) (.new, t)).map (turnOf api)

/-- The SDK calls of the turns. -/
def sdkLog (ts : List Turn) : List (Event VmbC) := ts.flatMap Turn.calls

/-- A successful `open_camera` that issues `h` for `raw`. -/
def Turn.opens (h : CameraHandle) (raw : VmbHandle) (x : Turn) : Prop :=
  match x.event with
  | ⟨.openCamera _, .returned (.ok h')⟩ =>
    h' = h ∧ ∃ cId, x.calls = [vmbEvent (.vmbCameraOpen cId vmbAccessModeFull) (0, raw)]
  | _ => False

/-- `h` is given back, or issued again. -/
def Turn.retires (h : CameraHandle) (x : Turn) : Prop :=
  x.event.call = .closeCamera h ∨ ∃ raw, x.opens h raw

/-- `h` was issued for `raw`, and has been neither closed nor issued again since. -/
def LiveCamera (ts : List Turn) (h : CameraHandle) (raw : VmbHandle) : Prop :=
  Since (Turn.opens h raw) (Turn.retires h) ts

/-- The SDK opens a camera under `raw`. -/
def sdkOpens (raw : VmbHandle) : Event VmbC → Bool
  | ⟨.vmbCameraOpen _ _, a⟩ => a.1 = 0 ∧ a.2 = raw
  | _ => false

/-- The raw handle an event has opened. -/
def openedBy : Event VmbC → Option VmbHandle
  | ⟨.vmbCameraOpen _ _, a⟩ => if a.1 = 0 then some a.2 else none
  | _ => none

theorem openedBy_eq_some {e : Event VmbC} {raw : VmbHandle} (he : sdkOpens raw e = true) :
    openedBy e = some raw := by
  unfold sdkOpens at he
  split at he
  · obtain ⟨hrc, hraw⟩ : _ ∧ _ := of_decide_eq_true he
    simp [openedBy, hrc, hraw]
  · cases he

/-- The SDK is told to close `raw`. -/
def sdkCloses (raw : VmbHandle) : Event VmbC → Bool
  | ⟨.vmbCameraClose raw', _⟩ => raw' = raw
  | _ => false

/-- The SDK has opened `raw` and has not been told to close it since. -/
def SdkOpen (log : List (Event VmbC)) (raw : VmbHandle) : Prop :=
  Since (sdkOpens raw ·) (sdkCloses raw ·) log

/-- A successful `VmbCameraOpen` returns a raw handle that is not open. -/
def OpensFresh (ts : List Turn) : Prop :=
  Conforms (fun pre x => ∀ e ∈ x.calls, ∀ raw, sdkOpens raw e = true → ¬ SdkOpen (sdkLog pre) raw) ts

/-- What a port call may do with camera handles, after the turns `ts`. -/
structure Safe (ts : List Turn) (x : Turn) : Prop where
  /-- The table resolves the live handles, and nothing else. -/
  resolves : ∀ h raw, x.before.cameras.lookup h = some raw ↔ LiveCamera ts h raw
  /-- A raw handle given to the SDK is that of the live handle the call names. -/
  issued : ∀ e ∈ x.calls, ∀ raw, rawCamera e.call = some raw →
    ∃ h, namedCamera x.event.call = some h ∧ LiveCamera ts h raw
  /-- Two live handles do not share a raw handle. -/
  injective : ∀ h h' raw, LiveCamera ts h raw → LiveCamera ts h' raw → h = h'
  /-- A handle that is not live is refused before the SDK is called. -/
  refused : ∀ h, namedCamera x.event.call = some h → (∀ raw, ¬ LiveCamera ts h raw) →
    x.calls = [] ∧ x.after = x.before ∧
      (bestEffort x.event.call = true ∨ Fails unknownCamera x.event.call x.event.resp)

/-! ## The invariant -/

/-- The table, the live handles and the open cameras of the SDK belong together. -/
structure HandlesInv (ts : List Turn) (s : FfiState) : Prop where
  resolves : ∀ h raw, s.cameras.lookup h = some raw ↔ LiveCamera ts h raw
  isOpen : ∀ h raw, s.cameras.lookup h = some raw → SdkOpen (sdkLog ts) raw
  injective : ∀ h h' raw, s.cameras.lookup h = some raw → s.cameras.lookup h' = some raw → h = h'
  closes : ∀ raw, Conforms (fun pre e => sdkCloses raw e = true → SdkOpen pre raw) (sdkLog ts)

theorem handlesInv_new : HandlesInv [] .new where
  resolves h raw := by simp [FfiState.new, LiveCamera]
  isOpen := by simp [FfiState.new]
  injective := by simp [FfiState.new]
  closes raw := conforms_nil

theorem sdkLog_append (ts : List Turn) (x : Turn) : sdkLog (ts ++ [x]) = sdkLog ts ++ x.calls := by
  simp [sdkLog]

theorem live_append {ts : List Turn} {x : Turn} {h : CameraHandle} {raw : VmbHandle} :
    LiveCamera (ts ++ [x]) h raw ↔ x.opens h raw ∨ LiveCamera ts h raw ∧ ¬ x.retires h := since_append

/-- A turn that opens and closes no camera. -/
theorem HandlesInv.keep {ts : List Turn} {s s' : FfiState} {x : Turn} (h : HandlesInv ts s)
    (hcameras : s'.cameras = s.cameras) (hopens : ∀ h raw, ¬ x.opens h raw)
    (hcloses : ∀ h raw, x.event.call = .closeCamera h → s.cameras.lookup h ≠ some raw)
    (hcalls : ∀ e ∈ x.calls, ∀ raw, sdkCloses raw e = false) : HandlesInv (ts ++ [x]) s' where
  resolves h' raw := by
    rw [hcameras, live_append, h.resolves]
    constructor
    · refine fun hlive => Or.inr ⟨hlive, ?_⟩
      rintro (hclose | ⟨raw', hopen⟩)
      · exact hcloses h' raw hclose ((h.resolves h' raw).mpr hlive)
      · exact hopens h' raw' hopen
    · rintro (hopen | ⟨hlive, -⟩)
      · exact absurd hopen (hopens h' raw)
      · exact hlive
  isOpen h' raw hraw := by
    rw [hcameras] at hraw
    rw [sdkLog_append]
    exact (h.isOpen h' raw hraw).append fun e he => by simp [hcalls e he]
  injective h₁ h₂ raw h₁' h₂' := by
    rw [hcameras] at h₁' h₂'
    exact h.injective h₁ h₂ raw h₁' h₂'
  closes raw := by
    rw [sdkLog_append]
    exact (h.closes raw).append fun e he pre hclose => by simp [hcalls e he] at hclose

theorem sdkCloses_eq_false_of_quiet {e : Event VmbC} (h : Quiet e.call) (raw : VmbHandle) :
    sdkCloses raw e = false := by
  rcases e with ⟨c, r⟩
  cases c <;> first | rfl | exact absurd h id

variable {s s' : FfiState} {c : PortCall} {evs : List (Event VmbC)} {r : c.Resp} {ts : List Turn}

/-- A successful `open_camera` adds its handle. -/
theorem HandlesInv.opened (h : HandlesInv ts s) {id : String} {cId : CString} {raw : VmbHandle}
    (hid : s.currentId ≠ 0) (hfresh : ¬ SdkOpen (sdkLog ts) raw) (s' : FfiState)
    (hcameras : s'.cameras = s.cameras.insert ⟨s.currentId, hid⟩ raw) :
    HandlesInv (ts ++ [⟨s, ⟨.openCamera id, .returned (.ok ⟨s.currentId, hid⟩)⟩,
      [vmbEvent (.vmbCameraOpen cId vmbAccessModeFull) (0, raw)], s'⟩]) s' where
  resolves h' raw' := by
    rw [hcameras, lookup_insert_eq_some, live_append]
    have hopens : ∀ h₁ raw₁, Turn.opens h₁ raw₁ ⟨s, ⟨.openCamera id,
        .returned (.ok ⟨s.currentId, hid⟩)⟩, [vmbEvent (.vmbCameraOpen cId vmbAccessModeFull) (0, raw)],
        s'⟩ ↔ h₁ = ⟨s.currentId, hid⟩ ∧ raw₁ = raw := by
      intro h₁ raw₁
      constructor
      · rintro ⟨rfl, cId', hcalls⟩
        cases hcalls
        exact ⟨rfl, rfl⟩
      · rintro ⟨rfl, rfl⟩
        exact ⟨rfl, cId, rfl⟩
    simp only [Turn.retires, hopens, reduceCtorEq, false_or, exists_and_left, exists_eq, and_true,
      h.resolves]
    constructor
    · rintro (⟨rfl, rfl⟩ | ⟨hne, hlive⟩)
      · exact Or.inl ⟨rfl, rfl⟩
      · exact Or.inr ⟨hlive, hne⟩
    · rintro (⟨rfl, rfl⟩ | ⟨hlive, hne⟩)
      · exact Or.inl ⟨rfl, rfl⟩
      · exact Or.inr ⟨hne, hlive⟩
  isOpen h' raw' hraw := by
    rw [sdkLog_append]
    rw [hcameras, lookup_insert_eq_some] at hraw
    rcases hraw with ⟨-, rfl⟩ | ⟨-, hraw⟩
    · exact since_append.mpr (Or.inl (by simp [sdkOpens]))
    · exact (h.isOpen h' raw' hraw).append (by simp [sdkCloses, vmbEvent])
  injective h₁ h₂ raw' hraw₁ hraw₂ := by
    rw [hcameras, lookup_insert_eq_some] at hraw₁ hraw₂
    rcases hraw₁ with ⟨rfl, rfl⟩ | ⟨-, hraw₁⟩ <;> rcases hraw₂ with ⟨rfl, heq⟩ | ⟨-, hraw₂⟩
    · rfl
    · exact absurd (h.isOpen _ _ hraw₂) hfresh
    · exact absurd (heq ▸ h.isOpen _ _ hraw₁) hfresh
    · exact h.injective h₁ h₂ raw' hraw₁ hraw₂
  closes raw' := by
    rw [sdkLog_append]
    exact (h.closes raw').append fun e he pre hclose => by
      obtain rfl := List.mem_singleton.mp he
      cases hclose

/-- `close_camera` takes its handle away. -/
theorem HandlesInv.closed (h : HandlesInv ts s) {h₀ : CameraHandle} {raw : VmbHandle} {rc : Int32}
    (hraw : s.cameras.lookup h₀ = some raw) (s' : FfiState)
    (hcameras : s'.cameras = s.cameras.erase h₀) :
    HandlesInv (ts ++ [⟨s, ⟨.closeCamera h₀, ()⟩, [vmbEvent (.vmbCameraClose raw) rc], s'⟩]) s' where
  resolves h' raw' := by
    rw [hcameras, lookup_erase_eq_some, live_append, h.resolves]
    have hopens : ∀ h₁ raw₁, ¬ Turn.opens h₁ raw₁
        ⟨s, ⟨.closeCamera h₀, ()⟩, [vmbEvent (.vmbCameraClose raw) rc], s'⟩ := fun _ _ h => h
    simp only [Turn.retires, hopens, exists_false, or_false, false_or, PortCall.closeCamera.injEq]
    constructor
    · rintro ⟨hne, hlive⟩
      exact ⟨hlive, Ne.symm hne⟩
    · rintro ⟨hlive, hne⟩
      exact ⟨Ne.symm hne, hlive⟩
  isOpen h' raw' hraw' := by
    rw [sdkLog_append]
    rw [hcameras, lookup_erase_eq_some] at hraw'
    obtain ⟨hne, hraw'⟩ := hraw'
    refine (h.isOpen h' raw' hraw').append fun e he hclose => ?_
    obtain rfl := List.mem_singleton.mp he
    obtain rfl : raw = raw' := by simpa [sdkCloses, vmbEvent] using hclose
    -- two handles never share a raw one, so `h'` is the closed one
    exact hne (h.injective h' h₀ raw hraw' hraw)
  injective h₁ h₂ raw' hraw₁ hraw₂ := by
    rw [hcameras, lookup_erase_eq_some] at hraw₁ hraw₂
    exact h.injective h₁ h₂ raw' hraw₁.2 hraw₂.2
  closes raw' := by
    rw [sdkLog_append]
    refine conforms_append.mpr ⟨h.closes raw', fun hclose => ?_⟩
    obtain rfl : raw = raw' := by simpa [sdkCloses, vmbEvent] using hclose
    exact h.isOpen h₀ raw hraw

/-- **Every port call keeps the three views together.** -/
theorem HandlesInv.step (h : HandlesInv ts s) (hstep : Step s c evs r s')
    (hfresh : ∀ e ∈ evs, ∀ raw, sdkOpens raw e = true → ¬ SdkOpen (sdkLog ts) raw) :
    HandlesInv (ts ++ [⟨s, ⟨c, r⟩, evs, s'⟩]) s' := by
  cases hstep with
  | opened id cId raw hc hid =>
      refine h.opened hid (hfresh _ (List.mem_singleton_self _) raw ?_) _ rfl
      simp [sdkOpens]
  | closed h₀ raw rc hraw => exact h.closed hraw _ rfl
  | lifecycle c evs r b hc hevs =>
      refine h.keep rfl (fun h' raw hopen => ?_) (fun h' raw hclose => ?_)
        fun e he raw => sdkCloses_eq_false_of_quiet (hevs e he) raw
      · rcases hc with rfl | rfl <;> exact hopen
      · rcases hc with rfl | rfl <;> cases hclose
  | quiet c evs r hr hevs =>
      refine h.keep rfl (fun h' raw hopen => ?_) (fun h' raw hclose => ?_)
        fun e he raw => sdkCloses_eq_false_of_quiet (hevs e he) raw
      · cases c with
        | openCamera id => exact hr
        | _ => exact hopen
      · obtain rfl : c = .closeCamera h' := hclose
        exact absurd hr id
  | refused c r hc hr =>
      refine h.keep rfl (fun h' raw hopen => ?_) (fun h' raw hclose => ?_) (by simp)
      · cases c with
        | openCamera id =>
            obtain ⟨context, rfl⟩ := hr
            exact hopen
        | _ => exact hopen
      · obtain rfl : c = .closeCamera h' := hclose
        have hnone : s.cameras.lookup h' = none := hc
        rw [hnone]
        exact Option.some_ne_none raw |>.symm
  | _ =>
      refine h.keep rfl (fun h' raw hopen => hopen) (fun h' raw hclose => ?_) fun e he raw => ?_
      · cases hclose
      · first
          | exact absurd he List.not_mem_nil
          | obtain rfl := List.mem_singleton.mp he
            rfl

/-! ## Runs -/

/-- What a call may do follows from the invariant before it. -/
theorem HandlesInv.safe {s : FfiState × τ} (h : HandlesInv ts s.1) (api : VmbApi τ) (c : PortCall) :
    Safe ts (turnOf api (s, ⟨c, (vmbFfiRuntime api s c).1⟩)) where
  resolves := h.resolves
  issued e he raw hraw := by
    obtain ⟨x, hx, rfl⟩ := List.mem_map.mp he
    obtain ⟨h', hc, hlookup⟩ := (FfiState.dispatch_resolved s.1 c).of_mem_history hx raw hraw
    exact ⟨h', hc, (h.resolves h' raw).mp hlookup⟩
  injective h₁ h₂ raw h₁' h₂' :=
    h.injective h₁ h₂ raw ((h.resolves h₁ raw).mpr h₁') ((h.resolves h₂ raw).mpr h₂')
  refused h' hc hdead := by
    replace hc : namedCamera c = some h' := hc
    have hnone : s.1.cameras.lookup h' = none := by
      refine Option.eq_none_iff_forall_ne_some.mpr fun raw hraw => ?_
      exact hdead raw ((h.resolves h' raw).mp hraw)
    obtain ⟨r, hdone, hfails⟩ := FfiState.dispatch_of_unknown hc hnone
    have hcalls : sdkCalls api s c = [] := by
      unfold sdkCalls
      rw [hdone]
      rfl
    have hafter : vmbFfiRuntime api s c = (r, s) := by
      unfold vmbFfiRuntime
      rw [hdone]
      rfl
    refine ⟨hcalls, ?_, ?_⟩
    · show (vmbFfiRuntime api s c).2.1 = s.1
      rw [hafter]
    · show bestEffort c = true ∨ Fails unknownCamera c (vmbFfiRuntime api s c).1
      rw [hafter]
      exact hfails

/-- **No stale or forged camera handle reaches the SDK**, and every raw handle is closed at most once
for each time it was opened. -/
theorem handles_safe {α : Type} (api : VmbApi τ) (t : τ) (p : PortM α)
    (hfresh : OpensFresh (turns api t p)) :
    Conforms Safe (turns api t p) ∧
      ∀ raw, (sdkLog (turns api t p)).countP (sdkCloses raw) ≤
        (sdkLog (turns api t p)).countP (sdkOpens raw) := by
  have hstep : ∀ l s c, HandlesInv (l.map (turnOf api)) s.1 →
      (∀ e ∈ (turnOf api (s, ⟨c, (vmbFfiRuntime api s c).1⟩)).calls, ∀ raw, sdkOpens raw e = true →
        ¬ SdkOpen (sdkLog (l.map (turnOf api))) raw) →
      HandlesInv ((l ++ [(s, ⟨c, (vmbFfiRuntime api s c).1⟩)]).map (turnOf api))
        (vmbFfiRuntime api s c).2.1 := by
    intro l s c hinv hok
    rw [List.map_append]
    exact hinv.step (vmbFfiRuntime_sdkCalls api s c) hok
  obtain ⟨hall, hend⟩ := @Prog.history_induction Port α _ (vmbFfiRuntime api)
    (fun l s => HandlesInv (l.map (turnOf api)) s.1)
    (fun l x => ∀ e ∈ (turnOf api x).calls, ∀ raw, sdkOpens raw e = true →
      ¬ SdkOpen (sdkLog (l.map (turnOf api))) raw)
    hstep p (.new, t) [] handlesInv_new (conforms_map.mp hfresh)
  refine ⟨conforms_map.mpr fun l x l' hl => ?_, fun raw => ?_⟩
  · have hresp : x.2.resp = (vmbFfiRuntime api x.1 x.2.call).1 := by
      refine Prog.resp_of_mem_history (p := p) (s := (.new, t)) ?_
      rw [hl]
      simp
    obtain ⟨s, c, r⟩ := x
    obtain rfl : r = (vmbFfiRuntime api s c).1 := hresp
    exact (hall l _ l' hl).safe api c
  · have hcount := countP_le_of_conforms (hend.closes raw)
    exact Nat.le_of_add_right_le hcount

/-- A client that opens a camera, closes it, and asks the closed handle and a made-up one for their
payload sizes. -/
def useAfterClose : PortM Unit := do
  match ← port (.openCamera "cam-a") with
  | .returned (.ok h) => do
    port (.closeCamera h)
    let _ ← port (.payloadSize h)
    let _ ← port (.payloadSize ⟨⟨99, by decide⟩⟩)
    pure ()
  | _ => pure ()

theorem opensFresh_useAfterClose : OpensFresh (turns mockApi 1 useAfterClose) := by
  -- Only the first turn opens a camera, and nothing is open before it.
  intro pre x post hsplit e he raw hopen hheld
  rcases pre with - | ⟨y, pre⟩
  · exact since_nil hheld
  · have hx : x ∈ (turns mockApi 1 useAfterClose).tail := by
      rw [hsplit]
      simp
    have htail : ∀ y ∈ (turns mockApi 1 useAfterClose).tail, ∀ e ∈ y.calls,
        ∃ raw, rawCamera e.call = some raw := by
      show ∀ y ∈ [_, _, _], _
      simp only [List.forall_mem_cons]
      exact ⟨List.forall_mem_singleton.mpr ⟨1, rfl⟩, fun e he => absurd he List.not_mem_nil,
        fun e he => absurd he List.not_mem_nil, fun y hy => absurd hy List.not_mem_nil⟩
    obtain ⟨raw', hraw'⟩ := htail x hx e he
    obtain ⟨c, r⟩ := e
    cases c <;> first | cases hopen | cases hraw'

theorem handles_safe_useAfterClose :
    Conforms Safe (turns mockApi 1 useAfterClose) ∧
      ∀ raw, (sdkLog (turns mockApi 1 useAfterClose)).countP (sdkCloses raw) ≤
        (sdkLog (turns mockApi 1 useAfterClose)).countP (sdkOpens raw) :=
  handles_safe mockApi 1 useAfterClose opensFresh_useAfterClose

end Vmb.Ffi

/-
# Vmb.Ffi.SdkProtocol -- from the port protocol to the rules of the SDK

The SDK wants every camera used in order: a raw handle is used between `VmbCameraOpen` and
`VmbCameraClose`, frames are queued between `VmbCaptureStart` and `VmbCaptureEnd` and while they are
announced, and a camera is closed when nothing of it is left (`SdkAllowed`). A start counts when it
succeeds. The calls that end a capture, stop an acquisition or revoke the frames count whatever they
return: the adapter drops their codes, and nobody tries again. What the domain layer keeps is the protocol
of the port (`Vmb.Core.Ownership`).

`atSdk` is the SDK side of one thread with one camera: what its own steps have made of the raw handle,
the capture and the frames. The thread counts on the tables for its own entries (`Answers`). A method the
port protocol allows makes only steps `atSdk` allows, and leaves the two views related
(`steps_sameCamera`); so does every operation of a domain object (`clientSteps_sameCamera`).
-/
import Vmb.Core.Agreement
import Vmb.Ffi.Footprint
import Vmb.Ffi.Handles
import Vmb.Lib.Trust

namespace Vmb.Ffi

open Vmb.Lib Vmb.Core Vmb.Sdk

/-! ## The rules of the SDK -/

section Rules

/-- The feature command is run by its C name. -/
def Names (name : String) (cmd : CString) : Prop := cmd.val = bytes name

instance (name : String) (cmd : CString) : Decidable (Names name cmd) :=
  inferInstanceAs (Decidable (_ = _))

variable (raw : VmbHandle)

def sdkStartsCapture : Event VmbC → Bool
  | ⟨.vmbCaptureStart raw', rc⟩ => raw' = raw ∧ rc = (0 : Int32)
  | _ => false

/-- `VmbCaptureEnd` has been called, whatever it returned. -/
def sdkEndsCapture : Event VmbC → Bool
  | ⟨.vmbCaptureEnd raw', _⟩ => raw' = raw
  | _ => false

def sdkStartsAcquisition : Event VmbC → Bool
  | ⟨.vmbFeatureCommandRun raw' cmd, rc⟩ =>
    raw' = raw ∧ Names featureAcquisitionStart cmd ∧ rc = (0 : Int32)
  | _ => false

/-- `AcquisitionStop` has been run, whatever that returned. -/
def sdkStopsAcquisition : Event VmbC → Bool
  | ⟨.vmbFeatureCommandRun raw' cmd, _⟩ => raw' = raw ∧ Names featureAcquisitionStop cmd
  | _ => false

def sdkAnnounces (ptr : Nat) : Event VmbC → Bool
  | ⟨.vmbFrameAnnounce raw' ptr', rc⟩ => raw' = raw ∧ ptr' = ptr ∧ rc = (0 : Int32)
  | _ => false

/-- `VmbFrameRevokeAll` has been called, whatever it returned: after a refused call the SDK may still hold
the frames. -/
def sdkRevokes : Event VmbC → Bool
  | ⟨.vmbFrameRevokeAll raw', _⟩ => raw' = raw
  | _ => false

variable (log : List (Event VmbC))

/-- A capture of the raw handle has been started, and no end of it has been called for. -/
def SdkCapturing : Prop := Since (sdkStartsCapture raw ·) (sdkEndsCapture raw ·) log

/-- An acquisition of the raw handle has been started, and no stop of it has been called for. -/
def SdkAcquiring : Prop := Since (sdkStartsAcquisition raw ·) (sdkStopsAcquisition raw ·) log

/-- The frame is announced to the raw handle, and no revoke has been called for since. -/
def SdkAnnounced (ptr : Nat) : Prop := Since (sdkAnnounces raw ptr ·) (sdkRevokes raw ·) log

end Rules

/-- What must hold of the SDK calls before a call. -/
def SdkAllowedCall (pre : List (Event VmbC)) : SdkCall → Prop
  | .vmbCameraClose raw => SdkOpen pre raw ∧ ¬ SdkCapturing raw pre ∧ ¬ SdkAcquiring raw pre ∧
      ∀ ptr, ¬ SdkAnnounced raw pre ptr
  | .vmbSettingsLoad raw _ => SdkOpen pre raw
  | .vmbFeatureCommandRun raw cmd => SdkOpen pre raw ∧
      (Names featureAcquisitionStart cmd → SdkCapturing raw pre ∧ ¬ SdkAcquiring raw pre)
  | .vmbPayloadSizeGet raw => SdkOpen pre raw
  | .vmbFrameAnnounce raw _ => SdkOpen pre raw ∧ ¬ SdkCapturing raw pre
  | .vmbFrameRevokeAll raw => SdkOpen pre raw ∧ ¬ SdkCapturing raw pre
  | .vmbCaptureStart raw => SdkOpen pre raw ∧ ¬ SdkCapturing raw pre
  | .vmbCaptureEnd raw => SdkOpen pre raw ∧ ¬ SdkAcquiring raw pre
  | .vmbCaptureQueueFlush raw => SdkOpen pre raw
  | .vmbCaptureFrameQueue raw ptr _ =>
      SdkOpen pre raw ∧ SdkCapturing raw pre ∧ SdkAnnounced raw pre ptr
  | _ => True

def SdkAllowed (pre : List (Event VmbC)) (e : Event VmbC) : Prop := SdkAllowedCall pre e.call

/-! ## One camera at the SDK -/

/-- What the steps of a thread have made of its camera. -/
structure CameraView where
  /-- The camera in the table, and its raw handle. -/
  camera : Option (CameraHandle × VmbHandle) := none
  /-- A raw handle that is open and not in the table. -/
  hand : Option VmbHandle := none
  capturing : Bool := false
  acquiring : Bool := false
  /-- The announced frames, by their slots. -/
  frames : List (FrameSlotId × Nat) := []
  /-- An announced frame that has no slot yet. -/
  pending : Option Nat := none
  deriving DecidableEq

namespace CameraView

def handle (w : CameraView) : Option CameraHandle := w.camera.map Prod.fst

/-- The raw handle of the camera in the table. -/
def raw (w : CameraView) : Option VmbHandle := w.camera.map Prod.snd

/-- The thread has the raw handle. -/
def Owns (w : CameraView) (raw : VmbHandle) : Prop := w.raw = some raw ∨ w.hand = some raw

/-- The thread has announced the frame. -/
def Announced (w : CameraView) (ptr : Nat) : Prop := w.pending = some ptr ∨ ptr ∈ w.frames.map Prod.snd

theorem raw_of_handle {w : CameraView} {h : CameraHandle} (hh : w.handle = some h) :
    ∃ raw, w.camera = some (h, raw) := by
  obtain ⟨⟨h', raw⟩, hcamera, rfl⟩ := Option.map_eq_some_iff.mp hh
  exact ⟨raw, hcamera⟩

end CameraView

/-- The SDK side of a thread with one camera. -/
def atSdk : Contract Steps CameraView where
  pre w c :=
    match c with
    | .access (.getCamera h) => w.handle = some h
    | .access (.insertCamera _ raw) => w.hand = some raw ∧ w.camera = none
    | .access (.removeCamera h) => w.handle = some h ∧ w.hand = none
    | .access (.insertFrame _ ctx) => w.pending = some ctx.addr
    | .access (.patchFrame slot _) => slot ∈ w.frames.map Prod.fst
    | .sdk (.vmbCameraOpen _ _) => w = {}
    | .sdk (.vmbCameraClose raw) => w = { hand := some raw }
    | .sdk (.vmbSettingsLoad raw _) => w.raw = some raw
    | .sdk (.vmbFeatureCommandRun raw cmd) => w.raw = some raw ∧
        (Names featureAcquisitionStart cmd → w.capturing = true ∧ w.acquiring = false)
    | .sdk (.vmbPayloadSizeGet raw) => w.raw = some raw
    | .sdk (.vmbFrameAnnounce raw _) => w.raw = some raw ∧ w.capturing = false ∧ w.pending = none
    | .sdk (.vmbFrameRevokeAll raw) => w.raw = some raw ∧ w.capturing = false
    | .sdk (.vmbCaptureStart raw) => w.raw = some raw ∧ w.capturing = false
    | .sdk (.vmbCaptureEnd raw) => w.raw = some raw ∧ w.acquiring = false
    | .sdk (.vmbCaptureQueueFlush raw) => w.raw = some raw
    | .sdk (.vmbCaptureFrameQueue raw ptr _) =>
        w.raw = some raw ∧ w.capturing = true ∧ ptr ∈ w.frames.map Prod.snd
    | _ => True
  next w c r :=
    match c, r with
    | .access (.insertCamera h raw), _ => { w with camera := some (h, raw), hand := none }
    | .access (.removeCamera _), found => { w with camera := none, hand := found }
    | .access (.insertFrame slot ctx), _ =>
        { w with frames := w.frames ++ [(slot, ctx.addr)], pending := none }
    | .sdk (.vmbCameraOpen _ _), a => if a.1 = 0 then { w with hand := some a.2 } else w
    | .sdk (.vmbCameraClose _), _ => { w with hand := none }
    | .sdk (.vmbFeatureCommandRun _ cmd), rc =>
        if Names featureAcquisitionStop cmd then { w with acquiring := false }
        else if Names featureAcquisitionStart cmd ∧ rc = (0 : Int32) then { w with acquiring := true }
        else w
    | .sdk (.vmbFrameAnnounce _ ptr), rc => if rc = (0 : Int32) then { w with pending := some ptr } else w
    | .sdk (.vmbFrameRevokeAll _), _ => { w with frames := [], pending := none }
    | .sdk (.vmbCaptureStart _), rc => if rc = (0 : Int32) then { w with capturing := true } else w
    | .sdk (.vmbCaptureEnd _), _ => { w with capturing := false }
    | _, _ => w

/-- What a thread counts on: a number that has been drawn is not zero, its camera is in the table, and a
frame of its own that is still in the table has its old address. -/
def Answers (w : CameraView) : (c : AtomicStep) → c.Resp → Prop
  | .access .fetchAdd, id => id ≠ (0 : UInt64)
  | .access (.getCamera _), found => found = w.raw
  | .access (.removeCamera _), found => found = w.raw
  | .access (.patchFrame slot _), found => ∀ ptr, found = some ptr → (slot, ptr) ∈ w.frames
  | _, _ => True

/-- The contract of a thread that counts on it. -/
noncomputable abbrev trustingSdk : Contract Steps (Option CameraView) := atSdk.trusting Answers

/-! ## The methods of the port -/

/-- The two views of one owner agree. The callbacks of the owner are the port's business only. -/
structure SameCamera (v : Holdings) (w : CameraView) : Prop where
  handle : w.handle = v.handle
  hand : w.hand = none
  pending : w.pending = none
  slots : w.frames.map Prod.fst = v.slots
  unqueued : ∀ slot ∈ v.unqueued, slot ∈ v.slots
  window : w.capturing = v.window.isSome
  acquiring : w.acquiring = v.acquiring

/-- From related views, the method makes the steps it may and leaves related views. -/
def KeepsRules (v : Holdings) (w : CameraView) (c : PortCall) : Prop :=
  (steps c).Meets trustingSdk (Trusted fun r w' => SameCamera (afterCall v c r) w') (some w)

variable {v : Holdings} {w : CameraView} {α : Type} {Q : α → CameraView → Prop}

section Methods

/-- A step that leaves the view alone. -/
theorem meets_unseen {c : AtomicStep} {k : c.Resp → Prog Steps α} (hpre : atSdk.pre w c)
    (hnext : ∀ r, atSdk.next w c r = w)
    (hk : ∀ r, Answers w c r → (k r).Meets trustingSdk (Trusted Q) (some w)) :
    (Prog.call (S := Steps) c k).Meets trustingSdk (Trusted Q) (some w) := by
  refine Prog.meets_trusting_call hpre fun r hr => ?_
  rw [hnext r]
  exact hk r hr

/-- `resolve_camera` finds the camera of the owner. -/
theorem withCamera_keepsRules {β : Type} {h : CameraHandle} {raw : VmbHandle}
    {k : VmbHandle → Prog Steps (Result β)} {Q : Result β → CameraView → Prop}
    (hcamera : w.camera = some (h, raw)) (hk : (k raw).Meets trustingSdk (Trusted Q) (some w)) :
    (Atomic.withCamera h k).Meets trustingSdk (Trusted Q) (some w) := by
  have hhandle : w.handle = some h := by rw [CameraView.handle, hcamera]; rfl
  have hraw : w.raw = some raw := by rw [CameraView.raw, hcamera]; rfl
  refine meets_unseen hhandle (fun _ => rfl) fun found hfound => ?_
  have hfound : found = w.raw := hfound
  rw [hfound, hraw]
  exact hk

theorem ifCamera_keepsRules {h : CameraHandle} {raw : VmbHandle} {k : VmbHandle → Prog Steps Unit}
    {Q : Unit → CameraView → Prop} (hcamera : w.camera = some (h, raw))
    (hk : (k raw).Meets trustingSdk (Trusted Q) (some w)) :
    (Atomic.ifCamera h k).Meets trustingSdk (Trusted Q) (some w) := by
  have hhandle : w.handle = some h := by rw [CameraView.handle, hcamera]; rfl
  have hraw : w.raw = some raw := by rw [CameraView.raw, hcamera]; rfl
  refine meets_unseen hhandle (fun _ => rfl) fun found hfound => ?_
  have hfound : found = w.raw := hfound
  rw [hfound, hraw]
  exact hk

/-- The camera of an owner, in both views. -/
theorem SameCamera.camera (hs : SameCamera v w) {h : CameraHandle} (hh : v.handle = some h) :
    ∃ raw, w.camera = some (h, raw) ∧ w.raw = some raw := by
  obtain ⟨raw, hcamera⟩ := CameraView.raw_of_handle (hs.handle.trans hh)
  exact ⟨raw, hcamera, by rw [CameraView.raw, hcamera]; rfl⟩

/-- An owner of nothing. -/
theorem SameCamera.empty (hs : SameCamera {} w) : w = {} := by
  rcases w with ⟨camera, hand, capturing, acquiring, frames, pending⟩
  obtain ⟨hhandle, rfl, rfl, hslots, -, rfl, rfl⟩ := hs
  obtain rfl : camera = none := Option.map_eq_none_iff.mp hhandle
  obtain rfl : frames = [] := List.map_eq_nil_iff.mp hslots
  rfl

/-- What a start that has failed leaves. -/
theorem SameCamera.gaveUp (hs : SameCamera v w) : SameCamera { v with unqueued := [] } w :=
  ⟨hs.handle, hs.hand, hs.pending, hs.slots, fun _ h => absurd h List.not_mem_nil, hs.window,
    hs.acquiring⟩

theorem openCamera_keepsRules (hs : SameCamera v w) (id : String) (hmay : mayCall v (.openCamera id)) :
    KeepsRules v w (.openCamera id) := by
  have hv : v = {} := hmay
  subst hv
  obtain rfl := hs.empty
  show (Atomic.openCamera id).Meets _ _ _
  unfold Atomic.openCamera Atomic.nextId
  cases CString.new (bytes id) with
  | none => exact Prog.meets_trusting_done hs
  | some cId =>
      refine Prog.meets_trusting_call rfl fun a _ => ?_
      have hnext : atSdk.next {} (.sdk (.vmbCameraOpen cId vmbAccessModeFull)) a =
          if a.1 = 0 then { hand := some a.2 } else {} := rfl
      rw [hnext]
      dsimp only [Prog.bind]
      cases hcheck : check a.1 with
      | error e =>
          rw [if_neg (FfiState.check_error hcheck).1]
          exact Prog.meets_trusting_done hs
      | ok _ =>
          rw [if_pos (FfiState.check_ok hcheck)]
          refine meets_unseen trivial (fun _ => rfl) fun n hn => ?_
          have hn : n ≠ 0 := hn
          dsimp only [Prog.bind]
          rw [dif_pos hn]
          refine Prog.meets_trusting_call ⟨rfl, rfl⟩ fun _ _ => Prog.meets_trusting_done ?_
          exact ⟨rfl, rfl, rfl, rfl, fun _ h => h, rfl, rfl⟩

/-- A camera is closed when nothing of it is left. -/
theorem closeCamera_keepsRules (hs : SameCamera v w) {h : CameraHandle}
    (hmay : mayCall v (.closeCamera h)) : KeepsRules v w (.closeCamera h) := by
  obtain ⟨hhandle, -, hslots, hwindow, hacquiring⟩ := hmay
  obtain ⟨raw, hcamera, hraw⟩ := hs.camera hhandle
  refine Prog.meets_trusting_call ⟨hs.handle.trans hhandle, hs.hand⟩ fun found hfound => ?_
  have hfound : found = w.raw := hfound
  rw [hfound, hraw]
  have hnext : atSdk.next w (.access (.removeCamera h)) (some raw) = { hand := some raw } := by
    have hframes := List.map_eq_nil_iff.mp (hs.slots.trans hslots)
    have hcapturing : w.capturing = false := by rw [hs.window, hwindow]; rfl
    show ({ w with camera := none, hand := some raw } : CameraView) = _
    rw [hs.pending, hframes, hcapturing, hs.acquiring, hacquiring]
  rw [hnext]
  refine Prog.meets_trusting_call rfl fun _ _ => Prog.meets_trusting_done ?_
  refine ⟨rfl, rfl, rfl, hslots.symm, hs.unqueued, ?_, hacquiring.symm⟩
  show false = v.window.isSome
  rw [hwindow]
  rfl

theorem loadSettings_keepsRules (hs : SameCamera v w) {h : CameraHandle} (path : Path)
    (hmay : mayCall v (.loadSettings h path)) : KeepsRules v w (.loadSettings h path) := by
  obtain ⟨raw, hcamera, hraw⟩ := hs.camera hmay
  refine withCamera_keepsRules hcamera ?_
  cases CString.new (lossy path) with
  | none => exact Prog.meets_trusting_done hs
  | some cPath => exact meets_unseen hraw (fun _ => rfl) fun rc _ => Prog.meets_trusting_done hs

theorem payloadSize_keepsRules (hs : SameCamera v w) {h : CameraHandle}
    (hmay : mayCall v (.payloadSize h)) : KeepsRules v w (.payloadSize h) := by
  obtain ⟨raw, hcamera, hraw⟩ := hs.camera hmay
  refine withCamera_keepsRules hcamera (meets_unseen hraw (fun _ => rfl) fun a _ => ?_)
  dsimp only [Prog.bind]
  cases check a.1 with
  | error e => exact Prog.meets_trusting_done hs
  | ok _ => exact Prog.meets_trusting_done hs

theorem not_names_start_stop {cmd : CString} (h : Names featureAcquisitionStart cmd) :
    ¬ Names featureAcquisitionStop cmd := by
  unfold Names at h ⊢
  rw [h]
  decide

/-- `AcquisitionStart` only inside a capture, `AcquisitionStop` at any time. -/
theorem runFeatureCommand_keepsRules (hs : SameCamera v w) {h : CameraHandle} {name : String}
    (hmay : mayCall v (.runFeatureCommand h name)) : KeepsRules v w (.runFeatureCommand h name) := by
  obtain ⟨hhandle, hname⟩ := hmay
  obtain ⟨raw, hcamera, hraw⟩ := hs.camera hhandle
  refine withCamera_keepsRules hcamera ?_
  -- neither command has an interior NUL
  have hnul : (0 : UInt8) ∉ bytes name := by
    rcases hname with ⟨rfl, -⟩ | rfl <;> decide
  rw [CString.new_eq_some hnul]
  refine Prog.meets_trusting_call ⟨hraw, fun hstart => ?_⟩ fun rc _ => Prog.meets_trusting_done ?_
  · rcases hname with ⟨rfl, hwindow, -, hacquiring⟩ | rfl
    · exact ⟨hs.window.trans hwindow, hs.acquiring.trans hacquiring⟩
    · exact absurd rfl (not_names_start_stop hstart)
  · rcases hname with ⟨rfl, hwindow, -, hacquiring⟩ | rfl
    · have hstart : Names featureAcquisitionStart ⟨bytes featureAcquisitionStart, hnul⟩ := rfl
      have hne : featureAcquisitionStart ≠ featureAcquisitionStop := by decide
      simp only [atSdk, afterCall, if_neg (not_names_start_stop hstart), if_neg hne]
      cases hcheck : check rc with
      | error e =>
          rw [if_neg fun h => (FfiState.check_error hcheck).1 h.2]
          exact hs
      | ok _ =>
          rw [if_pos ⟨hstart, FfiState.check_ok hcheck⟩]
          exact ⟨hs.handle, hs.hand, hs.pending, hs.slots, hs.unqueued, hs.window, rfl⟩
    · have hstop : Names featureAcquisitionStop ⟨bytes featureAcquisitionStop, hnul⟩ := rfl
      simp only [atSdk, afterCall, if_pos hstop, if_true]
      exact ⟨hs.handle, hs.hand, hs.pending, hs.slots, hs.unqueued, hs.window, rfl⟩

/-- An announced frame gets its slot after the SDK has accepted it. -/
theorem announceFrame_keepsRules (hs : SameCamera v w) {h : CameraHandle} (size : UInt32)
    (hmay : mayCall v (.announceFrame h size)) : KeepsRules v w (.announceFrame h size) := by
  obtain ⟨hhandle, -, hwindow⟩ := hmay
  obtain ⟨raw, hcamera, hraw⟩ := hs.camera hhandle
  have hcapturing : w.capturing = false := by rw [hs.window, hwindow]; rfl
  refine withCamera_keepsRules hcamera (meets_unseen trivial (fun _ => rfl) fun ctx _ => ?_)
  refine Prog.meets_trusting_call ⟨hraw, hcapturing, hs.pending⟩ fun rc _ => ?_
  have hnext : atSdk.next w (.sdk (.vmbFrameAnnounce raw ctx.addr)) rc =
      if rc = (0 : Int32) then { w with pending := some ctx.addr } else w := rfl
  rw [hnext]
  dsimp only [Prog.bind]
  cases hcheck : check rc with
  | error e =>
      rw [if_neg (FfiState.check_error hcheck).1]
      exact Prog.meets_trusting_done hs.gaveUp
  | ok _ =>
      rw [if_pos (FfiState.check_ok hcheck)]
      refine meets_unseen trivial (fun _ => rfl) fun slot _ => ?_
      refine Prog.meets_trusting_call rfl fun _ _ => Prog.meets_trusting_done ?_
      refine ⟨hs.handle, hs.hand, rfl, ?_, fun slot' hslot => ?_, hs.window, hs.acquiring⟩
      · show (w.frames ++ [((⟨slot⟩ : FrameSlotId), ctx.addr)]).map Prod.fst = v.slots ++ [⟨slot⟩]
        rw [List.map_append, hs.slots]
        rfl
      · have hslot : slot' ∈ v.unqueued ++ [⟨slot⟩] := hslot
        rcases List.mem_append.mp hslot with hslot | hslot
        · exact List.mem_append_left _ (hs.unqueued slot' hslot)
        · exact List.mem_append_right _ hslot

theorem captureStart_keepsRules (hs : SameCamera v w) {h : CameraHandle}
    (hmay : mayCall v (.captureStart h)) : KeepsRules v w (.captureStart h) := by
  obtain ⟨hhandle, -, hwindow, -⟩ := hmay
  obtain ⟨raw, hcamera, hraw⟩ := hs.camera hhandle
  have hcapturing : w.capturing = false := by rw [hs.window, hwindow]; rfl
  refine withCamera_keepsRules hcamera ?_
  refine Prog.meets_trusting_call ⟨hraw, hcapturing⟩ fun rc _ => Prog.meets_trusting_done ?_
  have hnext : atSdk.next w (.sdk (.vmbCaptureStart raw)) rc =
      if rc = (0 : Int32) then { w with capturing := true } else w := rfl
  rw [hnext]
  cases hcheck : check rc with
  | error e =>
      rw [if_neg (FfiState.check_error hcheck).1]
      exact hs.gaveUp
  | ok _ =>
      rw [if_pos (FfiState.check_ok hcheck)]
      exact ⟨hs.handle, hs.hand, hs.pending, hs.slots, hs.unqueued, rfl, hs.acquiring⟩

/-- A queued frame is one of the owner's: the slot is, and the table answers with its address. -/
theorem queueFrame_keepsRules (hs : SameCamera v w) {h : CameraHandle} {slot : FrameSlotId}
    {cb : FrameCallbackId} (hmay : mayCall v (.queueFrame h slot cb)) :
    KeepsRules v w (.queueFrame h slot cb) := by
  obtain ⟨hhandle, -, hwindow, hslot⟩ := hmay
  obtain ⟨raw, hcamera, hraw⟩ := hs.camera hhandle
  have hmem : slot ∈ w.frames.map Prod.fst := by
    rw [hs.slots]
    exact hs.unqueued slot (List.mem_of_mem_head? hslot)
  refine withCamera_keepsRules hcamera (meets_unseen trivial (fun _ => rfl) fun callback _ => ?_)
  cases callback with
  | none => exact Prog.meets_trusting_done hs.gaveUp
  | some callback =>
      refine meets_unseen hmem (fun _ => rfl) fun framePtr hanswer => ?_
      cases framePtr with
      | none => exact Prog.meets_trusting_done hs.gaveUp
      | some ptr =>
          have hframe : (slot, ptr) ∈ w.frames := hanswer ptr rfl
          refine meets_unseen ⟨hraw, hs.window.trans hwindow, ?_⟩ (fun _ => rfl) fun rc _ => ?_
          · exact List.mem_map.mpr ⟨_, hframe, rfl⟩
          · refine Prog.meets_trusting_done ?_
            cases check rc with
            | error e => exact hs.gaveUp
            | ok _ =>
                refine ⟨hs.handle, hs.hand, hs.pending, hs.slots, fun slot' hslot' => ?_, ?_,
                  hs.acquiring⟩
                · exact hs.unqueued slot' (List.mem_of_mem_tail hslot')
                · show w.capturing = (v.window.map _).isSome
                  rw [hs.window, Option.isSome_map]

theorem captureEnd_keepsRules (hs : SameCamera v w) {h : CameraHandle} (hmay : mayCall v (.captureEnd h)) :
    KeepsRules v w (.captureEnd h) := by
  obtain ⟨hhandle, hacquiring⟩ := hmay
  obtain ⟨raw, hcamera, hraw⟩ := hs.camera hhandle
  refine ifCamera_keepsRules hcamera (Prog.meets_trusting_call ⟨hraw, hs.acquiring.trans hacquiring⟩ ?_)
  exact fun rc _ => Prog.meets_trusting_done
    ⟨hs.handle, hs.hand, hs.pending, hs.slots, fun _ h => absurd h List.not_mem_nil, rfl, hs.acquiring⟩

theorem captureQueueFlush_keepsRules (hs : SameCamera v w) {h : CameraHandle}
    (hmay : mayCall v (.captureQueueFlush h)) : KeepsRules v w (.captureQueueFlush h) := by
  obtain ⟨raw, hcamera, hraw⟩ := hs.camera hmay
  exact ifCamera_keepsRules hcamera
    (meets_unseen hraw (fun _ => rfl) fun rc _ => Prog.meets_trusting_done hs)

theorem frameRevokeAll_keepsRules (hs : SameCamera v w) {h : CameraHandle}
    (hmay : mayCall v (.frameRevokeAll h)) : KeepsRules v w (.frameRevokeAll h) := by
  obtain ⟨hhandle, hwindow, -⟩ := hmay
  obtain ⟨raw, hcamera, hraw⟩ := hs.camera hhandle
  have hcapturing : w.capturing = false := by rw [hs.window, hwindow]; rfl
  refine ifCamera_keepsRules hcamera (Prog.meets_trusting_call ⟨hraw, hcapturing⟩ fun rc _ => ?_)
  refine meets_unseen trivial (fun _ => rfl) fun _ _ => Prog.meets_trusting_done ?_
  exact ⟨hs.handle, hs.hand, rfl, rfl, fun _ h => h, hs.window, hs.acquiring⟩

/-- **A method the port protocol allows keeps the rules of the SDK**, and the two views agree after it. -/
theorem steps_sameCamera (hs : SameCamera v w) (c : PortCall) (hmay : clientProtocol.pre v c) :
    KeepsRules v w c := by
  -- a method that is not about a camera
  have hquiet : (∀ step, Makes c step → atSdk.pre w step ∧ ∀ r, atSdk.next w step r = w) →
      (∀ r, SameCamera (afterCall v c r) w) → KeepsRules v w c := fun hc hafter =>
    Prog.meets_trusting_quiet ((steps_makes c).mono hc) hafter
  have hown : ¬ OfSystem c → mayCall v c := hmay.resolve_right
  cases c with
  | openCamera id => exact openCamera_keepsRules hs id (hown (by simp [OfSystem]))
  | closeCamera h => exact closeCamera_keepsRules hs (hown (by simp [OfSystem]))
  | loadSettings h path => exact loadSettings_keepsRules hs path (hown (by simp [OfSystem]))
  | runFeatureCommand h name => exact runFeatureCommand_keepsRules hs (hown (by simp [OfSystem]))
  | payloadSize h => exact payloadSize_keepsRules hs (hown (by simp [OfSystem]))
  | announceFrame h size => exact announceFrame_keepsRules hs size (hown (by simp [OfSystem]))
  | captureStart h => exact captureStart_keepsRules hs (hown (by simp [OfSystem]))
  | queueFrame h slot cb => exact queueFrame_keepsRules hs (hown (by simp [OfSystem]))
  | captureEnd h => exact captureEnd_keepsRules hs (hown (by simp [OfSystem]))
  | captureQueueFlush h => exact captureQueueFlush_keepsRules hs (hown (by simp [OfSystem]))
  | frameRevokeAll h => exact frameRevokeAll_keepsRules hs (hown (by simp [OfSystem]))
  | registerDiscovery cb =>
      refine hquiet (fun step hstep => by cases hstep <;> exact ⟨trivial, fun _ => rfl⟩) fun r => ?_
      cases r <;> exact { hs with }
  | _ =>
      refine hquiet (fun step hstep => by cases hstep <;> exact ⟨trivial, fun _ => rfl⟩) fun r => ?_
      exact { hs with }

end Methods

/-! ## The operations of domain objects -/

/-- An operation of a domain object, as atomic steps of the adapter. -/
def clientSteps (a : Action) (obj : Option Object) : Prog Steps (Outcome × Option Object) :=
  (a.perform obj).through steps

/-- **An operation of a domain object keeps the rules of the SDK.** -/
theorem clientSteps_sameCamera (a : Action) (obj : Option Object) {o : Option CameraView}
    (ho : Trusted (fun obj w => SameCamera (ownedBy obj) w) obj o) :
    (clientSteps a obj).Meets trustingSdk (Trusted fun r w => SameCamera (ownedBy r.2) w) o := by
  have himpl : ∀ v o c, Trusted SameCamera v o → clientProtocol.pre v c →
      (steps c).Meets trustingSdk (fun r o' => Trusted SameCamera (afterCall v c r) o') o :=
    fun v o c hs hpre => Prog.meets_trusting fun w hw => steps_sameCamera (hs w hw) c hpre
  refine (perform_through himpl a obj ho).mono ?_
  rintro r o' ⟨v, hs, hleaves⟩ w hw
  rcases hleaves with rfl | ⟨-, c, rfl⟩
  · exact hs w hw
  -- the callback a start has left behind is nothing to the SDK
  · exact { hs w hw with }

end Vmb.Ffi

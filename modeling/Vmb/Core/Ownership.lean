/-
# Vmb.Core.Ownership -- what the owner of an object owes the port

`Holdings` is one owner's view of the port: the identifiers it has been given and has not given
back, and how far its capture is. `protocol` states what an owner may call in such a view; every
call names only identifiers of the owner, and the teardown calls come in the order of the call
ordering rules of the port. The methods of `Camera` and `DiscoveryRegistration` meet the protocol
whatever the runtime answers (`perform_meets`), so a runtime that serves it serves every sequential
run of a client program (`runOps_serves`).

The one exception is `start_capture` with a slot vector that cannot be allocated: it panics after
`install_frame_callback`, and the installed callback is abandoned (`abandonedIn`).
-/
import Vmb.Core.World

namespace Vmb.Core

open Vmb.Lib

/-! ## Views -/

/-- What one owner holds at the port. -/
structure Holdings where
  /-- The open camera, with the id it was opened under. -/
  camera : Option (CameraHandle × String) := none
  /-- The installed frame callback and its closure. -/
  callback : Option (FrameCallbackId × FrameCallback) := none
  /-- The announced slots that have not been revoked. -/
  slots : List FrameSlotId := []
  /-- The announced slots the owner is still going to queue. -/
  unqueued : List FrameSlotId := []
  /-- The frames queued since `capture_start`, while the capture is open. -/
  window : Option (List (FrameSlotId × FrameCallbackId)) := none
  /-- `AcquisitionStart` succeeded and `AcquisitionStop` has not been issued since. -/
  acquiring : Bool := false
  /-- The installed discovery callback and its closure. -/
  discoveryCallback : Option (DiscoveryCallbackId × DiscoveryCallback) := none
  /-- The active registration. -/
  registration : Option DiscoveryRegistrationHandle := none
  deriving DecidableEq

namespace Holdings

/-- The handle of the open camera. -/
def handle (v : Holdings) : Option CameraHandle := v.camera.map Prod.fst

theorem handle_eq_some {v : Holdings} {h : CameraHandle} :
    v.handle = some h ↔ ∃ id, v.camera = some (h, id) := by
  simp [handle]

/-- The id of the installed frame callback. -/
def callbackId (v : Holdings) : Option FrameCallbackId := v.callback.map Prod.fst

theorem callbackId_eq_some {v : Holdings} {cb : FrameCallbackId} :
    v.callbackId = some cb ↔ ∃ f, v.callback = some (cb, f) := by
  simp [callbackId]

/-- The id of the installed discovery callback. -/
def discoveryCallbackId (v : Holdings) : Option DiscoveryCallbackId :=
  v.discoveryCallback.map Prod.fst

theorem discoveryCallbackId_eq_some {v : Holdings} {cb : DiscoveryCallbackId} :
    v.discoveryCallbackId = some cb ↔ ∃ f, v.discoveryCallback = some (cb, f) := by
  simp [discoveryCallbackId]

/-- The owner is not in the middle of a capture start. -/
def Idle (v : Holdings) : Prop := v.unqueued = []

/-- An open camera without a session. -/
def opened (cam : Camera) : Holdings := { camera := some (cam.handle, cam.id) }

/-- An open camera whose start has installed `cb` for the closure `f`. -/
def installed (cam : Camera) (cb : FrameCallbackId) (f : FrameCallback) : Holdings :=
  { opened cam with callback := some (cb, f) }

/-- An open camera with a live session. -/
def capturing (cam : Camera) (session : CaptureSession) (f : FrameCallback) : Holdings :=
  { installed cam session.callbackId f with
    slots := session.slots
    window := some (session.slots.map fun slot => (slot, session.callbackId))
    acquiring := true }

end Holdings

/-- What an object holds between two method calls. -/
def Object.holdings : Object → Holdings
  | .system => {}
  | .camera cam f =>
    match cam.session with
    | none => .opened cam
    | some session => .capturing cam session f
  | .registration reg f =>
    { discoveryCallback := reg.callbackId.map fun id => (id, f), registration := reg.handle }

theorem Object.holdings_idle {cam : Camera} (hs : cam.session = none) (f : FrameCallback) :
    (Object.camera cam f).holdings = .opened cam := by
  simp [Object.holdings, hs]

theorem Object.holdings_capturing {cam : Camera} {session : CaptureSession}
    (hs : cam.session = some session) (f : FrameCallback) :
    (Object.camera cam f).holdings = .capturing cam session f := by
  simp [Object.holdings, hs]

/-- What a name holds between two method calls. -/
def ownedBy : Option Object → Holdings
  | none => {}
  | some obj => obj.holdings

/-- What the names of a world hold between two method calls. -/
def World.holdings (W : World) (x : Nat) : Holdings := ownedBy (W x)

@[simp] theorem World.holdings_update (W : World) (x : Nat) (obj : Option Object) :
    World.holdings (Function.update W x obj) = Function.update W.holdings x (ownedBy obj) := by
  funext y
  rcases eq_or_ne y x with rfl | hne
  · simp [World.holdings]
  · simp [World.holdings, hne]

theorem ownedBy_idle (obj : Option Object) : (ownedBy obj).Idle := by
  rcases obj with - | - | ⟨cam, f⟩ | ⟨reg, f⟩
  · rfl
  · rfl
  · rcases cam with ⟨h, id, - | session⟩ <;> rfl
  · rfl

/-- Between two method calls no start is in progress. -/
theorem World.holdings_idle (W : World) (x : Nat) : (W.holdings x).Idle := ownedBy_idle (W x)

/-! ## The protocol -/

/-- The calls an owner may issue. The calls of a `VmbSystem` are not among them: they are about the
runtime as a whole. -/
def mayCall (v : Holdings) : PortCall → Prop
  | .startup => False
  | .shutdown => False
  | .listCameras => False
  | .openCamera _ => v = {}
  | .closeCamera h => v.handle = some h ∧ v.callback = none ∧ v.slots = [] ∧ v.window = none ∧
      v.acquiring = false
  | .loadSettings h _ => v.handle = some h
  | .runFeatureCommand h name => v.handle = some h ∧
      (name = featureAcquisitionStart ∧ v.window.isSome ∧ v.unqueued = [] ∧ v.acquiring = false ∨
        name = featureAcquisitionStop)
  | .payloadSize h => v.handle = some h
  | .announceFrame h _ => v.handle = some h ∧ v.callback.isSome ∧ v.window = none
  | .captureStart h => v.handle = some h ∧ v.callback.isSome ∧ v.window = none ∧
      v.acquiring = false
  | .queueFrame h slot cb => v.handle = some h ∧ v.callbackId = some cb ∧ v.window.isSome ∧
      v.unqueued.head? = some slot
  | .captureEnd h => v.handle = some h ∧ v.acquiring = false
  | .captureQueueFlush h => v.handle = some h
  | .frameRevokeAll h => v.handle = some h ∧ v.window = none ∧ v.acquiring = false
  | .registerDiscovery cb => v.discoveryCallbackId = some cb ∧ v.registration = none
  | .unregisterDiscovery r => v.registration = some r
  | .installFrameCallback _ => v.handle.isSome ∧ v.callback = none
  | .uninstallFrameCallback id => v.callbackId = some id ∧ v.slots = [] ∧ v.window = none
  | .installDiscoveryCallback _ => v = {}
  | .uninstallDiscoveryCallback id => v.discoveryCallbackId = some id ∧ v.registration = none

/-- The view after an answer. A failed call of a start makes the owner give up the slots it was
going to queue. -/
def afterCall (v : Holdings) : (c : PortCall) → c.Resp → Holdings
  | .openCamera id, .returned (.ok h) => { v with camera := some (h, id) }
  | .closeCamera _, _ => { v with camera := none }
  | .runFeatureCommand _ name, r =>
    if name = featureAcquisitionStop then { v with acquiring := false }
    else match r with
      | .ok () => { v with acquiring := true }
      | .error _ => v
  | .announceFrame _ _, .ok slot =>
    { v with slots := v.slots ++ [slot], unqueued := v.unqueued ++ [slot] }
  | .announceFrame _ _, .error _ => { v with unqueued := [] }
  | .captureStart _, .ok () => { v with window := some [] }
  | .captureStart _, .error _ => { v with unqueued := [] }
  | .queueFrame _ slot cb, .ok () =>
    { v with unqueued := v.unqueued.tail, window := v.window.map (· ++ [(slot, cb)]) }
  | .queueFrame _ _ _, .error _ => { v with unqueued := [] }
  | .captureEnd _, _ => { v with window := none, unqueued := [] }
  | .frameRevokeAll _, _ => { v with slots := [], unqueued := [] }
  | .registerDiscovery _, .ok r => { v with registration := some r }
  | .unregisterDiscovery _, _ => { v with registration := none }
  | .installFrameCallback f, id => { v with callback := some (id, f) }
  | .uninstallFrameCallback _, _ => { v with callback := none }
  | .installDiscoveryCallback f, id => { v with discoveryCallback := some (id, f) }
  | .uninstallDiscoveryCallback _, _ => { v with discoveryCallback := none }
  | _, _ => v

namespace Holdings

/-! The fields of a view after an answer. Each of them is changed by few calls. -/

def cameraAfter (v : Holdings) : (c : PortCall) → c.Resp → Option (CameraHandle × String)
  | .openCamera id, .returned (.ok h) => some (h, id)
  | .closeCamera _, _ => none
  | _, _ => v.camera

def callbackAfter (v : Holdings) : (c : PortCall) → c.Resp → Option (FrameCallbackId × FrameCallback)
  | .installFrameCallback f, id => some (id, f)
  | .uninstallFrameCallback _, _ => none
  | _, _ => v.callback

def slotsAfter (v : Holdings) : (c : PortCall) → c.Resp → List FrameSlotId
  | .announceFrame _ _, .ok slot => v.slots ++ [slot]
  | .frameRevokeAll _, _ => []
  | _, _ => v.slots

def unqueuedAfter (v : Holdings) : (c : PortCall) → c.Resp → List FrameSlotId
  | .announceFrame _ _, .ok slot => v.unqueued ++ [slot]
  | .announceFrame _ _, .error _ => []
  | .captureStart _, .error _ => []
  | .queueFrame _ _ _, .ok () => v.unqueued.tail
  | .queueFrame _ _ _, .error _ => []
  | .captureEnd _, _ => []
  | .frameRevokeAll _, _ => []
  | _, _ => v.unqueued

def windowAfter (v : Holdings) :
    (c : PortCall) → c.Resp → Option (List (FrameSlotId × FrameCallbackId))
  | .captureStart _, .ok () => some []
  | .queueFrame _ slot cb, .ok () => v.window.map (· ++ [(slot, cb)])
  | .captureEnd _, _ => none
  | _, _ => v.window

def acquiringAfter (v : Holdings) : (c : PortCall) → c.Resp → Bool
  | .runFeatureCommand _ name, r =>
    if name = featureAcquisitionStop then false
    else match r with
      | .ok () => true
      | .error _ => v.acquiring
  | _, _ => v.acquiring

def discoveryCallbackAfter (v : Holdings) :
    (c : PortCall) → c.Resp → Option (DiscoveryCallbackId × DiscoveryCallback)
  | .installDiscoveryCallback f, id => some (id, f)
  | .uninstallDiscoveryCallback _, _ => none
  | _, _ => v.discoveryCallback

def registrationAfter (v : Holdings) : (c : PortCall) → c.Resp → Option DiscoveryRegistrationHandle
  | .registerDiscovery _, .ok r => some r
  | .unregisterDiscovery _, _ => none
  | _, _ => v.registration

end Holdings

/-- **The view after an answer, field by field.** What a call is not about, it leaves alone. -/
theorem afterCall_fields (v : Holdings) (c : PortCall) (r : c.Resp) :
    afterCall v c r =
      { camera := v.cameraAfter c r
        callback := v.callbackAfter c r
        slots := v.slotsAfter c r
        unqueued := v.unqueuedAfter c r
        window := v.windowAfter c r
        acquiring := v.acquiringAfter c r
        discoveryCallback := v.discoveryCallbackAfter c r
        registration := v.registrationAfter c r } := by
  cases c with
  | openCamera id => rcases r with (e | h) | m <;> rfl
  | runFeatureCommand h name =>
      by_cases hname : name = featureAcquisitionStop
      · rcases r with e | ⟨⟨⟩⟩ <;> simp only [afterCall, Holdings.acquiringAfter, if_pos hname] <;> rfl
      · rcases r with e | ⟨⟨⟩⟩ <;> simp only [afterCall, Holdings.acquiringAfter, if_neg hname] <;> rfl
  | announceFrame h size => rcases r with e | slot <;> rfl
  | captureStart h => rcases r with e | ⟨⟨⟩⟩ <;> rfl
  | queueFrame h slot cb => rcases r with e | ⟨⟨⟩⟩ <;> rfl
  | registerDiscovery cb => rcases r with e | r' <;> rfl
  | _ => rfl

/-- The protocol between the owner of an object and the runtime. -/
@[reducible] def protocol : Contract Port Holdings := ⟨mayCall, afterCall⟩

/-! ## The methods meet the protocol -/

section Methods

variable (cam : Camera) (cb : FrameCallbackId) (f : FrameCallback)

open Holdings

/-- A start that has announced `slots`, has `rest` still to queue, and is at `window`. -/
def starting (slots rest : List FrameSlotId)
    (window : Option (List (FrameSlotId × FrameCallbackId))) : Holdings :=
  { installed cam cb f with slots := slots, unqueued := rest, window := window }

variable {cam cb f}

theorem announceFrames_meets (payload : UInt32) (n : Nat) (slots : List FrameSlotId) :
    (Camera.announceFrames cam.handle payload n slots).Meets protocol
      (fun r v => match r with
        | .ok slots' => v = starting cam cb f slots' slots' none
        | .error _ => ∃ slots', v = starting cam cb f slots' [] none)
      (starting cam cb f slots slots none) := by
  induction n generalizing slots with
  | zero => rfl
  | succ n ih =>
      refine (meets_port_bind _ _ _ _ _).mpr ⟨⟨rfl, rfl, rfl⟩, fun r => ?_⟩
      rcases r with e | slot
      · exact ⟨slots, rfl⟩
      · exact ih (slots ++ [slot])

theorem queueFrames_meets (slots rest : List FrameSlotId)
    (w : List (FrameSlotId × FrameCallbackId)) :
    (Camera.queueFrames cam.handle cb rest).Meets protocol
      (fun r v => match r with
        | .ok () => v = starting cam cb f slots [] (some (w ++ rest.map fun slot => (slot, cb)))
        | .error _ => ∃ w', v = starting cam cb f slots [] (some w'))
      (starting cam cb f slots rest (some w)) := by
  induction rest generalizing w with
  | nil => simp [Camera.queueFrames]
  | cons slot rest ih =>
      refine (meets_port_bind _ _ _ _ _).mpr ⟨⟨rfl, rfl, rfl, rfl⟩, fun r => ?_⟩
      rcases r with e | -
      · exact ⟨w, rfl⟩
      · have hrest := ih (w ++ [(slot, cb)])
        simp only [List.append_assoc, List.singleton_append] at hrest
        exact hrest

/-- A capture start ends either with a live session or with something to unwind. -/
theorem primeCapture_meets (payload : UInt32) (n : Nat) :
    (Camera.primeCapture cam.handle payload cb n []).Meets protocol
      (fun r v => match r with
        | .ok slots => v = capturing cam ⟨cb, slots⟩ f
        | .error _ => ∃ slots w, v = starting cam cb f slots [] w)
      (starting cam cb f [] [] none) := by
  refine Prog.meets_bind.mpr ((announceFrames_meets payload n []).mono fun r v hv => ?_)
  rcases r with e | slots
  · obtain ⟨slots, rfl⟩ := hv
    exact ⟨slots, none, rfl⟩
  · subst hv
    refine (meets_port_bind _ _ _ _ _).mpr ⟨⟨rfl, rfl, rfl, rfl⟩, fun r => ?_⟩
    rcases r with e | -
    · exact ⟨slots, none, rfl⟩
    · refine Prog.meets_bind.mpr ((queueFrames_meets slots slots []).mono fun r v hv => ?_)
      rcases r with e | ⟨⟨⟩⟩
      · obtain ⟨w, rfl⟩ := hv
        exact ⟨slots, some w, rfl⟩
      · subst hv
        refine (meets_port_bind _ _ _ _ _).mpr
          ⟨⟨rfl, Or.inl ⟨rfl, rfl, rfl, rfl⟩⟩, fun r => ?_⟩
        rcases r with e | -
        · exact ⟨slots, _, rfl⟩
        · rfl

/-- Both teardown paths lead back to an open camera without a session. -/
theorem unwind_meets (slots : List FrameSlotId)
    (w : Option (List (FrameSlotId × FrameCallbackId))) :
    (Camera.unwind cam.handle cb).Meets protocol (fun _ v => v = opened cam)
      (starting cam cb f slots [] w) :=
  ⟨⟨rfl, rfl⟩, fun _ => ⟨rfl, fun _ => ⟨⟨rfl, rfl, rfl⟩, fun _ => ⟨⟨rfl, rfl, rfl⟩, fun _ => rfl⟩⟩⟩⟩

end Methods

namespace Camera

open Holdings (opened installed capturing)

variable {cam : Camera}

/-- `start_capture` ends with a live session, or leaves the camera as it was, except that a panic
leaves the callback installed. -/
theorem startCapture_meets (hs : cam.session = none) (n : Nat) (f : FrameCallback) :
    (cam.startCapture n f).Meets protocol
      (fun r v => match r.1 with
        | .returned (.ok ()) =>
          ∃ session, r.2 = { cam with session := some session } ∧ v = capturing cam session f
        | .returned (.error _) => r.2 = cam ∧ v = opened cam
        | .panicked _ => ¬ Allocatable n ∧ r.2 = cam ∧ ∃ cb, v = installed cam cb f)
      (opened cam) := by
  unfold startCapture
  rw [hs]
  refine (meets_port_bind _ _ _ _ _).mpr ⟨rfl, fun r => ?_⟩
  rcases r with e | payload
  · exact ⟨rfl, rfl⟩
  · refine (meets_port_bind _ _ _ _ _).mpr ⟨⟨rfl, rfl⟩, fun cb => ?_⟩
    by_cases hn : n * sizeOfFrameSlotId ≤ isizeMax
    · have hcap : withCapacity n = .returned [] := if_pos hn
      rw [hcap]
      refine Prog.meets_bind.mpr ((@primeCapture_meets cam cb f payload n).mono
        fun r v hv => ?_)
      rcases r with e | slots
      · obtain ⟨slots, w, rfl⟩ := hv
        -- something was announced, queued or started: the unwind gives all of it back
        refine Prog.meets_bind.mpr ((unwind_meets slots w).mono fun _ v hv => ?_)
        exact ⟨rfl, hv⟩
      · exact ⟨⟨cb, slots⟩, rfl, hv⟩
    · have hcap : withCapacity n = .panicked "capacity overflow" := if_neg hn
      rw [hcap]
      exact ⟨hn, rfl, cb, rfl⟩

/-- `stop_capture` returns `Ok` and ends the session. -/
theorem stopCapture_meets {session : CaptureSession} (hs : cam.session = some session)
    (f : FrameCallback) :
    (cam.stopCapture).Meets protocol
      (fun r v => r = (.ok (), { cam with session := none }) ∧ v = opened cam)
      (capturing cam session f) := by
  unfold stopCapture
  rw [hs]
  refine (meets_port_bind _ _ _ _ _).mpr ⟨⟨rfl, Or.inr rfl⟩, fun r => ?_⟩
  refine Prog.meets_bind.mpr ((unwind_meets session.slots
    (some (session.slots.map fun slot => (slot, session.callbackId)))).mono fun _ v hv => ?_)
  exact ⟨rfl, hv⟩

/-- Dropping a camera gives everything back. -/
theorem drop_meets (f : FrameCallback) :
    (cam.drop).Meets protocol (fun _ v => v = {}) (Object.camera cam f).holdings := by
  unfold Camera.drop
  rcases hs : cam.session with - | session
  · rw [Object.holdings_idle hs]
    exact ⟨⟨rfl, rfl, rfl, rfl, rfl⟩, fun _ => rfl⟩
  · rw [Object.holdings_capturing hs]
    refine Prog.meets_bind.mpr ((stopCapture_meets hs f).mono ?_)
    rintro r v ⟨rfl, rfl⟩
    exact ⟨⟨rfl, rfl, rfl, rfl, rfl⟩, fun _ => rfl⟩

end Camera

/-- A registration is made with its callback installed, and a failed one leaves nothing. -/
theorem registerCameraDiscovery_meets (f : DiscoveryCallback) :
    (registerCameraDiscovery f).Meets protocol
      (fun r v => match r with
        | .ok reg => v = (Object.registration reg f).holdings
        | .error _ => v = {}) {} := by
  refine (meets_port_bind _ _ _ _ _).mpr ⟨rfl, fun cb => ?_⟩
  refine (meets_port_bind _ _ _ _ _).mpr ⟨⟨rfl, rfl⟩, fun r => ?_⟩
  rcases r with e | h
  · exact ⟨⟨rfl, rfl⟩, fun _ => rfl⟩
  · rfl

/-- Dropping a registration unregisters before it uninstalls. -/
theorem DiscoveryRegistration.drop_meets (reg : DiscoveryRegistration) (f : DiscoveryCallback) :
    (reg.drop).Meets protocol (fun _ v => v = {}) (Object.registration reg f).holdings := by
  rcases reg with ⟨- | h, - | id⟩
  · rfl
  · exact ⟨⟨rfl, rfl⟩, fun _ => rfl⟩
  · exact ⟨rfl, fun _ => rfl⟩
  · exact ⟨rfl, fun _ => ⟨⟨rfl, rfl⟩, fun _ => rfl⟩⟩

/-! ## Method calls and operations -/

/-- The method call is one of a `VmbSystem`. -/
def SystemCall (a : Action) (obj : Option Object) : Prop :=
  a = .startup ∧ obj = none ∨ a = .listCameras ∧ obj = some .system ∨
    a = .drop ∧ obj = some .system

/-- The call is one of a `VmbSystem`. -/
def OfSystem (c : PortCall) : Prop := c = .startup ∨ c = .listCameras ∨ c = .shutdown

/-- The slot vector of the operation can be allocated. -/
def Action.Allocatable (a : Action) : Prop := ∀ n f, a = .startCapture n f → Core.Allocatable n

theorem Action.allocatable_startCapture {n : Nat} {f : FrameCallback} :
    (Action.startCapture n f).Allocatable ↔ Core.Allocatable n := by
  simp [Action.Allocatable]

instance (a : Action) : Decidable a.Allocatable :=
  match a with
  | .startCapture _ _ => decidable_of_iff _ Action.allocatable_startCapture.symm
  | .startup => isTrue (by simp [Action.Allocatable])
  | .listCameras => isTrue (by simp [Action.Allocatable])
  | .openCamera _ => isTrue (by simp [Action.Allocatable])
  | .registerDiscovery _ => isTrue (by simp [Action.Allocatable])
  | .loadSettings _ => isTrue (by simp [Action.Allocatable])
  | .stopCapture => isTrue (by simp [Action.Allocatable])
  | .drop => isTrue (by simp [Action.Allocatable])

/-- The method panicked. -/
def Outcome.panicked : Outcome → Bool
  | .finished (.panicked _) => true
  | _ => false

/-- What a start that panics in its allocation leaves: the object as it was, and the callback it has
installed. -/
structure Abandons (a : Action) (obj : Option Object) (r : Outcome × Option Object) (v : Holdings) :
    Prop where
  panicked : r.1.panicked = true
  unallocatable : ¬ a.Allocatable
  before : (ownedBy obj).callback = none
  after : (ownedBy r.2).callback = none
  view : ∃ c, v = { ownedBy r.2 with callback := some c }

/-- **Every method call of an owner meets the protocol**, and leaves exactly what the object holds
between two calls; a panicking start also leaves its callback. -/
theorem perform_meets (a : Action) (obj : Option Object) (hsys : ¬ SystemCall a obj) :
    (a.perform obj).Meets protocol (fun r v => v = ownedBy r.2 ∨ Abandons a obj r v)
      (ownedBy obj) := by
  rcases a.perform_cases obj with hskipped | happlies
  · rw [hskipped]
    exact Or.inl rfl
  cases happlies with
  | startup => exact absurd (Or.inl ⟨rfl, rfl⟩) hsys
  | listCameras => exact absurd (Or.inr (Or.inl ⟨rfl, rfl⟩)) hsys
  | openCamera id =>
      refine ⟨rfl, fun r => ?_⟩
      rcases r with (e | h) | m
      · exact Or.inl rfl
      · exact Or.inl rfl
      · exact Or.inl rfl
  | registerDiscovery f =>
      refine Prog.meets_bind.mpr ((registerCameraDiscovery_meets f).mono fun r v hv => ?_)
      rcases r with e | reg
      · exact Or.inl hv
      · exact Or.inl hv
  | loadSettings path cam f =>
      refine ⟨?_, fun r => Or.inl rfl⟩
      rcases cam with ⟨h, id, - | session⟩ <;> rfl
  | startCapture n f cam old =>
      simp only [Action.perform, Action.startCaptureOn, ownedBy]
      rcases hs : cam.session with - | session
      · rw [Object.holdings_idle hs]
        refine Prog.meets_bind.mpr ((Camera.startCapture_meets hs n f).mono ?_)
        rintro ⟨(e | ⟨⟨⟩⟩) | m, cam'⟩ v hv
        · obtain ⟨rfl, rfl⟩ := hv
          exact Or.inl (Object.holdings_idle hs _).symm
        · obtain ⟨session, rfl, rfl⟩ := hv
          exact Or.inl rfl
        · -- The panic comes between `install_frame_callback` and the first announcement.
          obtain ⟨hn, hcam : cam' = cam, cb, hv⟩ := hv
          subst hcam hv
          refine Or.inr ⟨rfl, fun ha => hn (ha n f rfl), ?_, ?_, (cb, f), ?_⟩ <;>
            simp [ownedBy, Object.holdings_idle hs, Holdings.installed, Holdings.opened]
      -- a second start is refused before any port call
      · simp [Camera.startCapture, hs]
  | stopCapture cam f =>
      simp only [Action.perform, Action.stopCaptureOn]
      rcases hs : cam.session with - | session
      · simp [Camera.stopCapture, hs]
      · rw [ownedBy, Object.holdings_capturing hs]
        refine Prog.meets_bind.mpr ((Camera.stopCapture_meets hs f).mono ?_)
        rintro r v ⟨rfl, rfl⟩
        exact Or.inl rfl
  | dropSystem => exact absurd (Or.inr (Or.inr ⟨rfl, rfl⟩)) hsys
  | dropCamera cam f =>
      exact Prog.meets_bind.mpr ((Camera.drop_meets f).mono fun _ v hv => Or.inl hv)
  | dropRegistration reg f =>
      exact Prog.meets_bind.mpr ((reg.drop_meets f).mono fun _ v hv => Or.inl hv)

theorem not_failed_skipped : ¬ Outcome.skipped.Failed := by
  rintro ⟨e, he⟩
  cases he

theorem not_failed_ok {α : Type} (a : α) : ¬ (Outcome.ofResult (.ok a)).Failed := by
  rintro ⟨e, he⟩
  cases he

theorem not_failed_panicked (m : String) : ¬ (Outcome.finished (.panicked m)).Failed := by
  rintro ⟨e, he⟩
  cases he

/-- **A method call of an owner that fails leaves everything as it was.** -/
theorem perform_failed_meets (a : Action) (obj : Option Object) (hsys : ¬ SystemCall a obj) :
    (a.perform obj).Meets protocol
      (fun r v => r.1.Failed → r.2 = obj ∧ v = ownedBy obj) (ownedBy obj) := by
  rcases a.perform_cases obj with hskipped | happlies
  · rw [hskipped]
    exact fun hfail => absurd hfail not_failed_skipped
  cases happlies with
  | startup => exact absurd (Or.inl ⟨rfl, rfl⟩) hsys
  | listCameras => exact absurd (Or.inr (Or.inl ⟨rfl, rfl⟩)) hsys
  | openCamera id =>
      refine ⟨rfl, fun r => ?_⟩
      rcases r with (e | h) | m
      · exact fun _ => ⟨rfl, rfl⟩
      · exact fun hfail => absurd hfail (not_failed_ok ())
      · exact fun hfail => absurd hfail (not_failed_panicked m)
  | registerDiscovery f =>
      refine Prog.meets_bind.mpr ((registerCameraDiscovery_meets f).mono fun r v hv => ?_)
      rcases r with e | reg
      · exact fun _ => ⟨rfl, hv⟩
      · exact fun hfail => absurd hfail (not_failed_ok ())
  | loadSettings path cam f =>
      refine ⟨?_, fun r _ => ⟨rfl, rfl⟩⟩
      rcases cam with ⟨h, id, - | session⟩ <;> rfl
  | startCapture n f cam old =>
      simp only [Action.perform, Action.startCaptureOn, ownedBy]
      rcases hs : cam.session with - | session
      · rw [Object.holdings_idle hs]
        refine Prog.meets_bind.mpr ((Camera.startCapture_meets hs n f).mono ?_)
        rintro ⟨(e | ⟨⟨⟩⟩) | m, cam'⟩ v hv
        · obtain ⟨rfl, rfl⟩ := hv
          exact fun _ => ⟨rfl, rfl⟩
        · exact fun hfail => absurd hfail (not_failed_ok ())
        · exact fun hfail => absurd hfail (not_failed_panicked m)
      · simp [Camera.startCapture, hs]
  | stopCapture cam f =>
      simp only [Action.perform, Action.stopCaptureOn]
      rcases hs : cam.session with - | session
      · simp [Camera.stopCapture, hs]
      · rw [ownedBy, Object.holdings_capturing hs]
        refine Prog.meets_bind.mpr ((Camera.stopCapture_meets hs f).mono ?_)
        rintro r v ⟨rfl, rfl⟩ hfail
        exact absurd hfail (not_failed_ok ())
  | dropSystem => exact absurd (Or.inr (Or.inr ⟨rfl, rfl⟩)) hsys
  | dropCamera cam f =>
      refine Prog.meets_bind.mpr ((Camera.drop_meets f).mono fun _ v hv hfail => ?_)
      exact absurd hfail (not_failed_ok ())
  | dropRegistration reg f =>
      refine Prog.meets_bind.mpr ((reg.drop_meets f).mono fun _ v hv hfail => ?_)
      exact absurd hfail (not_failed_ok ())

/-! ## Abandoned callbacks -/

/-- The frame callback a call installs. -/
def frameCallbackOf : Event Port → Option FrameCallbackId
  | ⟨.installFrameCallback _, id⟩ => some id
  | _ => none

/-- The callback of a view was there before, or has been installed since. -/
theorem callback_after {cb : FrameCallbackId} {f : FrameCallback} (log : List (Event Port))
    {v : Holdings} (h : (protocol.after v log).callback = some (cb, f)) :
    v.callback = some (cb, f) ∨ cb ∈ log.filterMap frameCallbackOf := by
  induction log generalizing v with
  | nil => exact Or.inl h
  | cons e log ih =>
      rw [List.filterMap_cons]
      rcases ih h with hcb | hcb
      · rcases e with ⟨c, r⟩
        have hcb : (afterCall v c r).callback = some (cb, f) := hcb
        rw [afterCall_fields] at hcb
        cases c
        case installFrameCallback g =>
          cases hcb
          exact Or.inr List.mem_cons_self
        case uninstallFrameCallback => cases hcb
        all_goals exact Or.inl hcb
      · right
        split
        · exact hcb
        · exact List.mem_cons_of_mem _ hcb

variable {σ : Type}

/-- The frame callbacks an operation leaves to nobody: it has installed them, and then it panicked. -/
def Op.abandons (m : VmbRuntime σ) (op : Op) (W : World) (s : σ) : List FrameCallbackId :=
  if ((op.run W).run m s).1.1.panicked then
    (((op.run W).history m s).map Prod.snd).filterMap frameCallbackOf
  else []

/-- The frame callbacks that are abandoned in a run. -/
def abandonedIn (m : VmbRuntime σ) : List Op → World → σ → List FrameCallbackId
  | [], _, _ => []
  | op :: ops, W, s =>
    op.abandons m W s ++ abandonedIn m ops ((op.run W).run m s).1.2 ((op.run W).run m s).2

/-- What the calls so far have installed. -/
def installing : Contract Port (List FrameCallbackId) where
  pre _ _ := True
  next l c r := l ++ (frameCallbackOf ⟨c, r⟩).toList

theorem after_installing (l : List FrameCallbackId) (log : List (Event Port)) :
    installing.after l log = l ++ log.filterMap frameCallbackOf := by
  induction log generalizing l with
  | nil => exact (List.append_nil l).symm
  | cons e log ih =>
      refine (ih _).trans ?_
      show (l ++ (frameCallbackOf e).toList) ++ _ = _
      rw [List.append_assoc, List.filterMap_cons]
      cases frameCallbackOf e <;> rfl

/-- A method that panics has installed nothing, if its slot vector can be allocated. -/
theorem perform_installs {a : Action} (ha : a.Allocatable) (obj : Option Object) :
    (a.perform obj).Meets installing (fun r l => r.1.panicked = true → l = []) [] := by
  have hany : ∀ {α : Type} (p : PortM α) (l : List FrameCallbackId),
      p.Meets installing (fun _ _ => True) l :=
    fun p l => (p.meets_free.results (fun _ _ => trivial) l).mono fun _ _ _ => trivial
  rcases a.perform_cases obj with hskipped | happlies
  · rw [hskipped]
    exact fun _ => rfl
  cases happlies with
  | startup => exact ⟨trivial, fun _ hpanic => (by cases hpanic)⟩
  | listCameras => exact ⟨trivial, fun _ hpanic => (by cases hpanic)⟩
  | openCamera id =>
      refine ⟨trivial, fun r => ?_⟩
      rcases r with (e | h) | m <;> exact fun _ => rfl
  | registerDiscovery f =>
      refine Prog.meets_bind.mpr ((hany _ _).mono fun r _ _ => ?_)
      rcases r with e | reg <;> exact fun hpanic => (by cases hpanic)
  | loadSettings path cam f => exact ⟨trivial, fun _ hpanic => (by cases hpanic)⟩
  | startCapture n f cam old =>
      rcases hs : cam.session with - | session
      · refine Prog.meets_bind.mpr
          (((Camera.startCapture_meets hs n f).results (fun _ _ => trivial) []).mono ?_)
        rintro ⟨r | m, cam'⟩ l ⟨v, hv⟩ hpanic
        · cases hpanic
        · exact absurd (ha n f rfl) hv.1
      · simp [Action.perform, Action.startCaptureOn, Camera.startCapture, hs, Outcome.panicked]
  | stopCapture cam f =>
      exact Prog.meets_bind.mpr ((hany _ _).mono fun r _ _ hpanic => (by cases hpanic))
  | dropSystem => exact ⟨trivial, fun _ hpanic => (by cases hpanic)⟩
  | dropCamera cam f =>
      exact Prog.meets_bind.mpr ((hany _ _).mono fun _ _ _ hpanic => (by cases hpanic))
  | dropRegistration reg f =>
      exact Prog.meets_bind.mpr ((hany _ _).mono fun _ _ _ hpanic => (by cases hpanic))

theorem Op.abandons_eq_nil {m : VmbRuntime σ} {op : Op} (hop : op.action.Allocatable) (W : World)
    (s : σ) : op.abandons m W s = [] := by
  unfold Op.abandons Op.run
  by_cases hreach : op.Reachable W
  · rw [if_pos hreach]
    simp only [Prog.history_bind, Prog.run_bind, Prog.pure_eq_done, Prog.run_done, Prog.history,
      List.append_nil]
    have hinstalls := (perform_installs hop (W op.target)).run_after m s
    rw [after_installing, List.nil_append] at hinstalls
    split
    · exact hinstalls ‹_›
    · rfl
  · rw [if_neg hreach]
    rfl

/-- Nothing is abandoned if every slot vector of the run can be allocated. -/
theorem abandonedIn_eq_nil {m : VmbRuntime σ} {ops : List Op}
    (hall : ∀ op ∈ ops, op.action.Allocatable) {W : World} {s : σ} : abandonedIn m ops W s = [] := by
  induction ops generalizing W s with
  | nil => rfl
  | cons op ops ih =>
      obtain ⟨hop, hrest⟩ := List.forall_mem_cons.mp hall
      rw [abandonedIn, op.abandons_eq_nil hop, ih hrest, List.nil_append]

section Soundness

variable {m : VmbRuntime σ} {Abs : σ → (Nat → Holdings) → Prop} {G : σ → Prop}

/-- `Abs` does not notice that the installed frame callback is abandoned. -/
def Forgets (Abs : σ → (Nat → Holdings) → Prop) (cb : FrameCallbackId) : Prop :=
  ∀ s L x f, Abs s L → (L x).callback = some (cb, f) →
    Abs s (Function.update L x { L x with callback := none })

/-- **A runtime that serves the protocol serves every operation of an owner.** -/
theorem Op.run_sound (h : Serves protocol m Abs Holdings.Idle G) (op : Op) (W : World) (s : σ)
    (hs : Abs s W.holdings) (hsys : ¬ SystemCall op.action (W op.target))
    (hleak : ∀ cb ∈ op.abandons m W s, Forgets Abs cb) (hG : G ((op.run W).run m s).2) :
    Abs ((op.run W).run m s).2 ((op.run W).run m s).1.2.holdings := by
  unfold Op.abandons at hleak
  unfold Op.run at hG hleak ⊢
  by_cases hreach : op.Reachable W
  · rw [if_pos hreach] at hG hleak ⊢
    simp only [Prog.history_bind, Prog.run_bind, Prog.pure_eq_done, Prog.run_done, Prog.history,
      List.append_nil] at hG hleak ⊢
    have hmeets := perform_meets op.action (W op.target) hsys
    have hview := hmeets.run_after m s
    have habs := h.run_after _ op.target hmeets hs (fun y _ => W.holdings_idle y) hG
    rw [World.holdings_update]
    generalize hv : protocol.after (ownedBy (W op.target))
      ((((op.action.perform (W op.target)).history m s)).map Prod.snd) = v at hview
    rw [show W.holdings op.target = ownedBy (W op.target) from rfl, hv] at habs
    rcases hview with rfl | hview
    · exact habs
    · obtain ⟨⟨cb, f⟩, hcb⟩ := hview.view
      have hcallback : v.callback = some (cb, f) := by rw [hcb]
      have hmem := (callback_after _ (hv ▸ hcallback)).resolve_left (by simp [hview.before])
      rw [if_pos hview.panicked] at hleak
      have hforget := hleak cb hmem _ _ op.target f habs (by rw [Function.update_self, hcallback])
      rw [Function.update_self, Function.update_idem] at hforget
      convert hforget using 2
      rw [hcb, ← hview.after]
  · rw [if_neg hreach]
    exact hs

/-- An operation that fails changes no object and nothing that any owner holds. The owners may be
more than the names of the world. -/
theorem Op.run_failed {ι : Type} [DecidableEq ι] {Abs : σ → (ι → Holdings) → Prop}
    (h : Serves protocol m Abs Holdings.Idle G) (op : Op) (W : World) (s : σ) {L : ι → Holdings}
    {i : ι} (hi : L i = W.holdings op.target) (hidle : ∀ j, j ≠ i → (L j).Idle) (hs : Abs s L)
    (hsys : ¬ SystemCall op.action (W op.target)) (hG : G ((op.run W).run m s).2)
    (hfail : ((op.run W).run m s).1.1.Failed) :
    ((op.run W).run m s).1.2 = W ∧ Abs ((op.run W).run m s).2 L := by
  unfold Op.run at hG hfail ⊢
  split
  · rw [if_pos ‹_›] at hG hfail
    simp only [Prog.run_bind, Prog.pure_eq_done, Prog.run_done] at hG hfail ⊢
    have hmeets := perform_failed_meets op.action (W op.target) hsys
    rw [show ownedBy (W op.target) = L i from hi.symm] at hmeets
    obtain ⟨v, hv, habs⟩ := h.run _ i hmeets hs hidle hG
    obtain ⟨hobj, rfl⟩ := hv hfail
    rw [hobj, Function.update_eq_self]
    rw [Function.update_eq_self] at habs
    exact ⟨rfl, habs⟩
  · exact ⟨rfl, hs⟩

/-- A method call of a `VmbSystem` is one port call, and no owner is concerned. -/
theorem Op.run_system (op : Op) (W : World) (s : σ) (hsys : SystemCall op.action (W op.target)) :
    (((op.run W).run m s).2 = s ∨ ∃ c, OfSystem c ∧ ((op.run W).run m s).2 = (m s c).2) ∧
      ((op.run W).run m s).1.2.holdings = W.holdings := by
  have hsame : ∀ obj, ownedBy obj = ownedBy (W op.target) →
      World.holdings (Function.update W op.target obj) = W.holdings := by
    intro obj hobj
    rw [World.holdings_update, hobj]
    exact Function.update_eq_self op.target W.holdings
  unfold Op.run
  split
  · rcases op with ⟨x, via, a⟩
    rcases hsys with ⟨rfl, hx⟩ | ⟨rfl, hx⟩ | ⟨rfl, hx⟩ <;> simp only at hx hsame ⊢ <;> rw [hx]
    · refine ⟨Or.inr ⟨.startup, Or.inl rfl, rfl⟩, hsame _ ?_⟩
      rw [hx]
      cases (m s .startup).1 <;> rfl
    · exact ⟨Or.inr ⟨.listCameras, Or.inr (Or.inl rfl), rfl⟩, hsame _ (by rw [hx])⟩
    · exact ⟨Or.inr ⟨.shutdown, Or.inr (Or.inr rfl), rfl⟩, hsame _ (by rw [hx]; rfl)⟩
  · exact ⟨Or.inl rfl, rfl⟩

/-- If the calls of a `VmbSystem` concern no owner either, the runtime serves every operation. -/
theorem Op.run_serves (h : Serves protocol m Abs Holdings.Idle G)
    (hsystem : ∀ s L c, Abs s L → OfSystem c → Abs (m s c).2 L) (op : Op) (W : World) (s : σ)
    (hs : Abs s W.holdings) (hleak : ∀ cb ∈ op.abandons m W s, Forgets Abs cb)
    (hG : G ((op.run W).run m s).2) :
    Abs ((op.run W).run m s).2 ((op.run W).run m s).1.2.holdings := by
  by_cases hsys : SystemCall op.action (W op.target)
  · obtain ⟨hstate, hW⟩ := Op.run_system (m := m) op W s hsys
    rw [hW]
    rcases hstate with hstate | ⟨c, hc, hstate⟩
    · rw [hstate]
      exact hs
    · rw [hstate]
      exact hsystem s W.holdings c hs hc
  · exact Op.run_sound h op W s hs hsys hleak hG

/-- **And every run.** -/
theorem runOps_serves (h : Serves protocol m Abs Holdings.Idle G)
    (hsystem : ∀ s L c, Abs s L → OfSystem c → Abs (m s c).2 L) (ops : List Op) (W : World) (s : σ)
    (hs : Abs s W.holdings) (hleak : ∀ cb ∈ abandonedIn m ops W s, Forgets Abs cb)
    (hG : G ((runOps ops W).run m s).2) :
    Abs ((runOps ops W).run m s).2 ((runOps ops W).run m s).1.2.holdings := by
  induction ops generalizing W s with
  | nil => exact hs
  | cons op ops ih =>
      rw [run_runOps_cons] at hG ⊢
      rw [abandonedIn, List.forall_mem_append] at hleak
      have hG' : G ((op.run W).run m s).2 := Prog.run_reflects m G h.back _ _ hG
      exact ih _ _ (op.run_serves h hsystem W s hs hleak.1 hG') hleak.2 hG

end Soundness

end Vmb.Core

/-
# Vmb.Core.Alive -- the live objects of a world, read off its views

Results about runs are proved with views (`World.holdings`) and stated with objects. The lemmas here
translate: what the view of a name has is what the object of that name has.
-/
import Vmb.Core.Ownership

namespace Vmb.Core

open Vmb.Lib

/-! ## One name -/

section OwnedBy

variable {obj : Option Object}

theorem camera_ownedBy {h : CameraHandle} {id : String} :
    (ownedBy obj).camera = some (h, id) ↔
      ∃ cam f, obj = some (.camera cam f) ∧ cam.handle = h ∧ cam.id = id := by
  rcases obj with - | - | ⟨⟨h', id', - | session⟩, f⟩ | ⟨reg, f⟩ <;>
    simp [ownedBy, Object.holdings, Holdings.opened, Holdings.installed, Holdings.capturing]

theorem handle_ownedBy {h : CameraHandle} :
    (ownedBy obj).handle = some h ↔ ∃ cam f, obj = some (.camera cam f) ∧ cam.handle = h := by
  rcases obj with - | - | ⟨⟨h', id', - | session⟩, f⟩ | ⟨reg, f⟩ <;>
    simp [ownedBy, Object.holdings, Holdings.handle, Holdings.opened, Holdings.installed,
      Holdings.capturing]

theorem callback_ownedBy {cb : FrameCallbackId} {f : FrameCallback} :
    (ownedBy obj).callback = some (cb, f) ↔
      ∃ cam session, obj = some (.camera cam f) ∧ cam.session = some session ∧
        session.callbackId = cb := by
  rcases obj with - | - | ⟨⟨h', id', - | session⟩, f'⟩ | ⟨reg, f'⟩ <;>
    simp [ownedBy, Object.holdings, Holdings.opened, Holdings.installed, Holdings.capturing,
      and_comm]

theorem mem_slots_ownedBy {slot : FrameSlotId} :
    slot ∈ (ownedBy obj).slots ↔
      ∃ cam f session, obj = some (.camera cam f) ∧ cam.session = some session ∧
        slot ∈ session.slots := by
  rcases obj with - | - | ⟨⟨h', id', - | session⟩, f⟩ | ⟨reg, f⟩ <;>
    simp [ownedBy, Object.holdings, Holdings.opened, Holdings.installed, Holdings.capturing]

theorem discoveryCallback_ownedBy {cb : DiscoveryCallbackId} {f : DiscoveryCallback} :
    (ownedBy obj).discoveryCallback = some (cb, f) ↔
      ∃ reg, obj = some (.registration reg f) ∧ reg.callbackId = some cb := by
  rcases obj with - | - | ⟨⟨h', id', - | session⟩, f'⟩ | ⟨reg, f'⟩ <;>
    simp [ownedBy, Object.holdings, Holdings.opened, Holdings.installed, Holdings.capturing, and_comm]

theorem registration_ownedBy {r : DiscoveryRegistrationHandle} :
    (ownedBy obj).registration = some r ↔
      ∃ reg f, obj = some (.registration reg f) ∧ reg.handle = some r := by
  rcases obj with - | - | ⟨⟨h', id', - | session⟩, f⟩ | ⟨reg, f⟩ <;>
    simp [ownedBy, Object.holdings, Holdings.opened, Holdings.installed, Holdings.capturing]

end OwnedBy

/-! ## Worlds -/

namespace World

variable {W : World}

/-- A live camera has the handle. -/
def HasCamera (W : World) (h : CameraHandle) : Prop :=
  ∃ x cam f, W x = some (.camera cam f) ∧ cam.handle = h

/-- A live session captures under the callback. -/
def CapturesUnder (W : World) (cb : FrameCallbackId) : Prop :=
  ∃ x cam f session, W x = some (.camera cam f) ∧ cam.session = some session ∧
    session.callbackId = cb

/-- A live session has announced the slot. -/
def HasSlot (W : World) (slot : FrameSlotId) : Prop :=
  ∃ x cam f session, W x = some (.camera cam f) ∧ cam.session = some session ∧
    slot ∈ session.slots

/-- A live registration was made with the callback. -/
def SubscribesUnder (W : World) (cb : DiscoveryCallbackId) : Prop :=
  ∃ x reg f, W x = some (.registration reg f) ∧ reg.callbackId = some cb

/-- A live registration has the handle. -/
def RegisteredAs (W : World) (r : DiscoveryRegistrationHandle) : Prop :=
  ∃ x reg f, W x = some (.registration reg f) ∧ reg.handle = some r

theorem hasCamera_iff {h : CameraHandle} :
    W.HasCamera h ↔ ∃ x, (W.holdings x).handle = some h :=
  exists_congr fun _ => handle_ownedBy.symm

theorem capturesUnder_iff {cb : FrameCallbackId} :
    W.CapturesUnder cb ↔ ∃ x, (W.holdings x).callbackId = some cb := by
  refine exists_congr fun x => ?_
  simp only [Holdings.callbackId, Option.map_eq_some_iff, Prod.exists, exists_and_right,
    exists_eq_right, World.holdings, callback_ownedBy]
  constructor
  · rintro ⟨cam, f, session, h⟩
    exact ⟨f, cam, session, h⟩
  · rintro ⟨f, cam, session, h⟩
    exact ⟨cam, f, session, h⟩

theorem hasSlot_iff {slot : FrameSlotId} : W.HasSlot slot ↔ ∃ x, slot ∈ (W.holdings x).slots :=
  exists_congr fun _ => mem_slots_ownedBy.symm

theorem subscribesUnder_iff {cb : DiscoveryCallbackId} :
    W.SubscribesUnder cb ↔ ∃ x, (W.holdings x).discoveryCallbackId = some cb := by
  refine exists_congr fun x => ?_
  simp only [Holdings.discoveryCallbackId, Option.map_eq_some_iff, Prod.exists, exists_and_right,
    exists_eq_right, World.holdings, discoveryCallback_ownedBy]
  constructor
  · rintro ⟨reg, ⟨f, hx⟩, hcb⟩
    exact ⟨f, reg, hx, hcb⟩
  · rintro ⟨f, reg, hx, hcb⟩
    exact ⟨reg, ⟨f, hx⟩, hcb⟩

theorem registeredAs_iff {r : DiscoveryRegistrationHandle} :
    W.RegisteredAs r ↔ ∃ x, (W.holdings x).registration = some r :=
  exists_congr fun _ => registration_ownedBy.symm

end World

/-! ## Registrations are complete -/

/-- A registration that is owned has its handle and its callback. -/
def Object.Complete (obj : Object) : Prop :=
  ∀ reg f, obj = .registration reg f → ∃ r cb, reg = ⟨some r, some cb⟩

theorem complete_camera (cam : Camera) (f : FrameCallback) : (Object.camera cam f).Complete := by
  intro reg g hreg
  cases hreg

theorem complete_system : Object.system.Complete := by
  intro reg g hreg
  cases hreg

theorem perform_complete (a : Action) (obj : Option Object) (hobj : ∀ o ∈ obj, o.Complete) :
    (a.perform obj).Meets (.free Port) (fun r _ => ∀ o ∈ r.2, o.Complete) () := by
  have hcamera : ∀ cam f, ∀ o ∈ some (Object.camera cam f), o.Complete := by
    rintro cam f o ⟨⟩
    exact complete_camera cam f
  have hnone : ∀ o ∈ (none : Option Object), o.Complete := by
    rintro o ⟨⟩
  rcases a.perform_cases obj with hskipped | happlies
  · rw [hskipped]
    exact hobj
  cases happlies with
  | startup =>
      refine ⟨trivial, fun r => ?_⟩
      rcases r with e | ⟨⟨⟩⟩
      · exact hnone
      · rintro o ⟨⟩
        exact complete_system
  | listCameras => exact ⟨trivial, fun r => hobj⟩
  | openCamera id =>
      refine ⟨trivial, fun r => ?_⟩
      rcases r with (e | h) | m
      · exact hnone
      · exact hcamera _ _
      · exact hnone
  | registerDiscovery f =>
      refine ⟨trivial, fun cb => ⟨trivial, fun r => ?_⟩⟩
      rcases r with e | r
      · exact ⟨trivial, fun _ => hnone⟩
      · rintro o ⟨⟩ reg g ⟨⟩
        exact ⟨r, cb, rfl⟩
  | loadSettings path cam f => exact ⟨trivial, fun r => hobj⟩
  | startCapture n f cam old =>
      exact Prog.meets_bind.mpr ((Prog.meets_free _).mono fun r _ _ => hcamera _ _)
  | stopCapture cam f =>
      exact Prog.meets_bind.mpr ((Prog.meets_free _).mono fun r _ _ => hcamera _ _)
  | dropSystem => exact ⟨trivial, fun _ => hnone⟩
  | dropCamera cam f => exact Prog.meets_bind.mpr ((Prog.meets_free _).mono fun _ _ _ => hnone)
  | dropRegistration reg f =>
      exact Prog.meets_bind.mpr ((Prog.meets_free _).mono fun _ _ _ => hnone)

/-- Every registration of the world has its handle and its callback. -/
def World.Complete (W : World) : Prop := ∀ x, ∀ o ∈ W x, o.Complete

section Runs

variable {σ : Type} {m : VmbRuntime σ} {W : World}

theorem Op.run_complete (op : Op) (hW : W.Complete) (s : σ) :
    ((op.run W).run m s).1.2.Complete := by
  unfold Op.run
  split
  · simp only [Prog.run_bind, Prog.pure_eq_done, Prog.run_done]
    intro x
    by_cases hx : x = op.target
    · subst hx
      rw [Function.update_self]
      exact (perform_complete op.action _ (hW op.target)).run_free m s
    · rw [Function.update_of_ne hx]
      exact hW x
  · exact hW

theorem runOps_complete (ops : List Op) (hW : W.Complete) (s : σ) :
    ((runOps ops W).run m s).1.2.Complete := by
  induction ops generalizing W s with
  | nil => exact hW
  | cons op ops ih =>
      rw [run_runOps_cons]
      exact ih (op.run_complete hW s) _

theorem complete_empty : World.empty.Complete := by
  rintro x o ⟨⟩

end Runs

/-- Something that is given back once has not been while it is alive, and has been afterwards. -/
def ReturnedOnce (alive : Prop) (returns : Nat) : Prop :=
  (alive → returns = 0) ∧ (¬ alive → returns = 1)

end Vmb.Core

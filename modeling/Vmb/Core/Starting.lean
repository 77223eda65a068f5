/-
# Vmb.Core.Starting -- the closure a capture start works for

While `start_capture` runs, one closure is being started: the one it was given. `startContract g` is the
contract of a method call whose closure is `g`: it installs `g` only, and it queues only slots it has
announced itself, with the callback it has installed itself. The other methods install and queue
nothing.
-/
import Vmb.Core.World

namespace Vmb.Core

open Vmb.Lib

/-- The closure a method call gives to the runtime for frames. -/
def Action.closure : Action → Option FrameCallback
  | .startCapture _ f => some f
  | _ => none

/-- What a method call has made so far: the callback it installed and the slots it announced. -/
structure Starting where
  callback : Option FrameCallbackId := none
  slots : List FrameSlotId := []

/-- The contract of a method call whose closure is `g`. -/
def startContract (g : Option FrameCallback) : Contract Port Starting where
  pre v
    | .installFrameCallback f => g = some f
    | .queueFrame _ slot cb => v.callback = some cb ∧ slot ∈ v.slots
    | _ => True
  next v
    | .installFrameCallback _, id => { v with callback := some id }
    | .uninstallFrameCallback _, _ => { v with callback := none }
    | .announceFrame _ _, .ok slot => { v with slots := v.slots ++ [slot] }
    | _, _ => v

namespace Camera

variable {cam : Camera} {g : Option FrameCallback} {f : FrameCallback} {cb : FrameCallbackId}
  {v : Starting}

/-- The announce loop hands on slots of its own. -/
theorem announceFrames_starting {h : CameraHandle} {payload : UInt32} {n : Nat}
    {acc : List FrameSlotId} (hcb : v.callback = some cb) (hacc : ∀ slot ∈ acc, slot ∈ v.slots) :
    (announceFrames h payload n acc).Meets (startContract g)
      (fun r v' => v'.callback = some cb ∧ ∀ slots, r = .ok slots → ∀ slot ∈ slots, slot ∈ v'.slots)
      v := by
  induction n generalizing acc v with
  | zero =>
      refine ⟨hcb, fun slots hslots => ?_⟩
      cases hslots
      exact hacc
  | succ n ih =>
      refine (meets_port_bind _ _ _ _ _).mpr ⟨trivial, fun r => ?_⟩
      rcases r with e | slot
      · refine ⟨hcb, fun slots hslots => ?_⟩
        cases hslots
      · refine ih hcb fun slot' hslot' => ?_
        rcases List.mem_append.mp hslot' with hslot' | hslot'
        · exact List.mem_append_left _ (hacc slot' hslot')
        · exact List.mem_append_right _ hslot'

theorem queueFrames_starting {h : CameraHandle} {slots : List FrameSlotId}
    (hcb : v.callback = some cb) (hslots : ∀ slot ∈ slots, slot ∈ v.slots) :
    (queueFrames h cb slots).Meets (startContract g) (fun _ _ => True) v := by
  induction slots with
  | nil => trivial
  | cons slot slots ih =>
      obtain ⟨hslot, hslots⟩ := List.forall_mem_cons.mp hslots
      refine (meets_port_bind _ _ _ _ _).mpr ⟨⟨hcb, hslot⟩, fun r => ?_⟩
      rcases r with e | ⟨⟨⟩⟩
      · trivial
      · exact ih hslots

theorem unwind_starting (h : CameraHandle) (cb : FrameCallbackId) (v : Starting) :
    (unwind h cb).Meets (startContract g) (fun _ _ => True) v :=
  ⟨trivial, fun _ => ⟨trivial, fun _ => ⟨trivial, fun _ => ⟨trivial, fun _ => trivial⟩⟩⟩⟩

/-- A start queues its own slots for its own closure. -/
theorem startCapture_starting (cam : Camera) (n : Nat) (f : FrameCallback) :
    (cam.startCapture n f).Meets (startContract (some f)) (fun _ _ => True) {} := by
  unfold startCapture
  rcases cam.session with - | session
  · refine (meets_port_bind _ _ _ _ _).mpr ⟨trivial, fun r => ?_⟩
    rcases r with e | payload
    · trivial
    · refine (meets_port_bind _ _ _ _ _).mpr ⟨rfl, fun cb => ?_⟩
      rcases hcap : withCapacity n with slots | m
      -- the vector is empty, so only slots announced from here on are queued
      · obtain rfl : slots = [] := by
          unfold withCapacity at hcap
          split at hcap
          · cases hcap
            rfl
          · cases hcap
        have hprime : (primeCapture cam.handle payload cb n []).Meets (startContract (some f))
            (fun _ _ => True) { callback := some cb } := by
          refine Prog.meets_bind.mpr ((announceFrames_starting rfl (by simp)).mono ?_)
          rintro (e | slots) v ⟨hcb, hslots⟩
          · trivial
          · refine (meets_port_bind _ _ _ _ _).mpr ⟨trivial, fun r => ?_⟩
            rcases r with e | ⟨⟨⟩⟩
            · trivial
            · refine Prog.meets_bind.mpr ((queueFrames_starting hcb (hslots slots rfl)).mono ?_)
              rintro (e | ⟨⟨⟩⟩) v -
              · trivial
              · refine (meets_port_bind _ _ _ _ _).mpr ⟨trivial, fun r => ?_⟩
                rcases r with e | ⟨⟨⟩⟩ <;> trivial
        refine Prog.meets_bind.mpr (hprime.mono ?_)
        rintro (e | slots) v -
        · exact Prog.meets_bind.mpr ((unwind_starting _ _ v).mono fun _ _ _ => trivial)
        · trivial
      · trivial
  · trivial

theorem stopCapture_starting (cam : Camera) (v : Starting) :
    (cam.stopCapture).Meets (startContract g) (fun _ _ => True) v := by
  unfold stopCapture
  rcases cam.session with - | session
  · trivial
  · refine (meets_port_bind _ _ _ _ _).mpr ⟨trivial, fun r => ?_⟩
    exact Prog.meets_bind.mpr ((unwind_starting _ _ _).mono fun _ _ _ => trivial)

theorem drop_starting (cam : Camera) (v : Starting) :
    (cam.drop).Meets (startContract g) (fun _ _ => True) v := by
  unfold Camera.drop
  rcases cam.session with - | session
  · exact ⟨trivial, fun _ => trivial⟩
  · exact Prog.meets_bind.mpr ((stopCapture_starting cam v).mono fun _ _ _ =>
      ⟨trivial, fun _ => trivial⟩)

end Camera

/-- **Every method call works for its own closure.** -/
theorem perform_starting (a : Action) (obj : Option Object) :
    (a.perform obj).Meets (startContract a.closure) (fun _ _ => True) {} := by
  rcases a.perform_cases obj with hskipped | happlies
  · rw [hskipped]
    trivial
  cases happlies with
  | startup => exact ⟨trivial, fun _ => trivial⟩
  | listCameras => exact ⟨trivial, fun _ => trivial⟩
  | openCamera id =>
      refine ⟨trivial, fun r => ?_⟩
      rcases r with (e | h) | m <;> trivial
  | registerDiscovery f =>
      refine ⟨trivial, fun cb => ⟨trivial, fun r => ?_⟩⟩
      rcases r with e | h
      · exact ⟨trivial, fun _ => trivial⟩
      · trivial
  | loadSettings path cam f => exact ⟨trivial, fun _ => trivial⟩
  | startCapture n f cam old =>
      exact Prog.meets_bind.mpr ((cam.startCapture_starting n f).mono fun _ _ _ => trivial)
  | stopCapture cam f =>
      exact Prog.meets_bind.mpr ((cam.stopCapture_starting _).mono fun _ _ _ => trivial)
  | dropSystem => exact ⟨trivial, fun _ => trivial⟩
  | dropCamera cam f =>
      exact Prog.meets_bind.mpr ((cam.drop_starting _).mono fun _ _ _ => trivial)
  | dropRegistration reg f =>
      rcases reg with ⟨- | h, - | cb⟩
      · trivial
      · exact ⟨trivial, fun _ => trivial⟩
      · exact ⟨trivial, fun _ => trivial⟩
      · exact ⟨trivial, fun _ => ⟨trivial, fun _ => trivial⟩⟩

end Vmb.Core

/-
# Vmb.Core.Trace -- identifiers in traces of port calls

A trace is the log of a runtime: the port calls of a run with their answers. The runtime issues
identifiers in its answers, and the client names them in later calls. An owner names only what it
owns (`mayCall.owns`), and what it owns after a call it owned before or was just issued
(`owns_afterCall`); the properties of whole traces rest on these two facts.
-/
import Vmb.Core.Ownership
import Vmb.Lib.Since
import Vmb.Lib.Tracks

namespace Vmb.Core

open Vmb.Lib

/-- An identifier of the port. -/
inductive Ident where
  | camera (h : CameraHandle)
  | slot (slot : FrameSlotId)
  | frameCallback (id : FrameCallbackId)
  | discoveryCallback (id : DiscoveryCallbackId)
  | registration (r : DiscoveryRegistrationHandle)
  deriving DecidableEq

/-- The raw numeric id, whatever the kind. -/
def Ident.asU64 : Ident → UInt64
  | .camera h => h.asU64
  | .slot s => s.id
  | .frameCallback id => id.id
  | .discoveryCallback id => id.id
  | .registration r => r.id

/-- The identifier an answer issues. -/
def issued : Event Port → Option Ident
  | ⟨.openCamera _, .returned (.ok h)⟩ => some (.camera h)
  | ⟨.announceFrame _ _, .ok slot⟩ => some (.slot slot)
  | ⟨.registerDiscovery _, .ok r⟩ => some (.registration r)
  | ⟨.installFrameCallback _, id⟩ => some (.frameCallback id)
  | ⟨.installDiscoveryCallback _, id⟩ => some (.discoveryCallback id)
  | _ => none

/-- A port call of a thread that keeps the identifiers it has been issued. -/
def issuing {S : Signature} (steps : (c : PortCall) → Prog S c.Resp) (c : PortCall)
    (ids : List Ident) : Prog S (Event Port × List Ident) := do
  let r ← steps c
  pure (⟨c, r⟩, ids ++ (issued ⟨c, r⟩).toList)

/-- The identifiers a call passes to the runtime. -/
def PortCall.names : PortCall → List Ident
  | .closeCamera h => [.camera h]
  | .loadSettings h _ => [.camera h]
  | .runFeatureCommand h _ => [.camera h]
  | .payloadSize h => [.camera h]
  | .announceFrame h _ => [.camera h]
  | .captureStart h => [.camera h]
  | .queueFrame h slot cb => [.camera h, .slot slot, .frameCallback cb]
  | .captureEnd h => [.camera h]
  | .captureQueueFlush h => [.camera h]
  | .frameRevokeAll h => [.camera h]
  | .registerDiscovery cb => [.discoveryCallback cb]
  | .unregisterDiscovery r => [.registration r]
  | .uninstallFrameCallback id => [.frameCallback id]
  | .uninstallDiscoveryCallback id => [.discoveryCallback id]
  | _ => []

/-- The identifiers of a view. -/
def Holdings.owns (v : Holdings) : Ident → Prop
  | .camera h => v.handle = some h
  | .slot slot => slot ∈ v.slots ∨ slot ∈ v.unqueued
  | .frameCallback id => v.callbackId = some id
  | .discoveryCallback id => v.discoveryCallbackId = some id
  | .registration r => v.registration = some r

theorem not_owns_empty (id : Ident) : ¬ Holdings.owns {} id := by
  cases id <;> simp [Holdings.owns, Holdings.handle, Holdings.callbackId,
    Holdings.discoveryCallbackId]

/-- **An owner names only what it owns.** -/
theorem mayCall.owns {v : Holdings} {c : PortCall} (h : mayCall v c) {id : Ident}
    (hid : id ∈ c.names) : v.owns id := by
  -- `queue_frame` names three identifiers, and every other call one or none
  cases c with
  | queueFrame h' slot cb =>
      obtain ⟨hh, hcb, -, hslot⟩ := h
      simp only [PortCall.names, List.mem_cons, List.not_mem_nil, or_false] at hid
      rcases hid with rfl | rfl | rfl
      · exact hh
      · exact Or.inr (List.mem_of_mem_head? hslot)
      · exact hcb
  | startup => exact absurd hid List.not_mem_nil
  | shutdown => exact absurd hid List.not_mem_nil
  | listCameras => exact absurd hid List.not_mem_nil
  | openCamera _ => exact absurd hid List.not_mem_nil
  | installFrameCallback _ => exact absurd hid List.not_mem_nil
  | installDiscoveryCallback _ => exact absurd hid List.not_mem_nil
  | loadSettings h' _ => exact List.mem_singleton.mp hid ▸ h
  | payloadSize h' => exact List.mem_singleton.mp hid ▸ h
  | captureQueueFlush h' => exact List.mem_singleton.mp hid ▸ h
  | unregisterDiscovery r => exact List.mem_singleton.mp hid ▸ h
  | _ => exact List.mem_singleton.mp hid ▸ h.1

/-- **What an owner owns after a call it owned before, or was just issued.** -/
theorem owns_afterCall {v : Holdings} {c : PortCall} {r : c.Resp} {i : Ident}
    (h : (afterCall v c r).owns i) : v.owns i ∨ issued ⟨c, r⟩ = some i := by
  rw [afterCall_fields] at h
  cases i with
  | camera h' =>
      cases c with
      | openCamera id =>
          rcases r with (e | h'') | m
          · exact Or.inl h
          · exact Or.inr (congrArg (some ∘ Ident.camera) (Option.some.inj h))
          · exact Or.inl h
      | closeCamera h'' => cases h
      | _ => exact Or.inl h
  | slot s =>
      -- The owner may give up queueing at any call, but it announces a slot to get one.
      cases c with
      | announceFrame h' size =>
          rcases r with e | slot
          · exact Or.inl (Or.inl (h.resolve_right List.not_mem_nil))
          · have hs : s ∈ v.slots ++ [slot] ∨ s ∈ v.unqueued ++ [slot] := h
            simp only [List.mem_append, List.mem_singleton] at hs
            rcases hs with (hs | rfl) | (hs | rfl)
            · exact Or.inl (Or.inl hs)
            · exact Or.inr rfl
            · exact Or.inl (Or.inr hs)
            · exact Or.inr rfl
      | captureStart h' =>
          rcases r with e | ⟨⟨⟩⟩
          · exact Or.inl (Or.inl (h.resolve_right List.not_mem_nil))
          · exact Or.inl h
      | queueFrame h' slot cb =>
          rcases r with e | ⟨⟨⟩⟩
          · exact Or.inl (Or.inl (h.resolve_right List.not_mem_nil))
          · exact Or.inl (h.imp_right List.mem_of_mem_tail)
      | captureEnd h' => exact Or.inl (Or.inl (h.resolve_right List.not_mem_nil))
      | frameRevokeAll h' =>
          rcases h with h | h
          · exact absurd h List.not_mem_nil
          · exact absurd h List.not_mem_nil
      | _ => exact Or.inl h
  | frameCallback id =>
      cases c with
      | installFrameCallback f =>
          exact Or.inr (congrArg (some ∘ Ident.frameCallback) (Option.some.inj h))
      | uninstallFrameCallback id' => cases h
      | _ => exact Or.inl h
  | discoveryCallback id =>
      cases c with
      | installDiscoveryCallback f =>
          exact Or.inr (congrArg (some ∘ Ident.discoveryCallback) (Option.some.inj h))
      | uninstallDiscoveryCallback id' => cases h
      | _ => exact Or.inl h
  | registration r' =>
      cases c with
      | registerDiscovery cb =>
          rcases r with e | r''
          · exact Or.inl h
          · exact Or.inr (congrArg (some ∘ Ident.registration) (Option.some.inj h))
      | unregisterDiscovery r'' => cases h
      | _ => exact Or.inl h

/-- The call gives something back to the runtime. -/
def PortCall.givesBack : PortCall → Bool
  | .closeCamera _ => true
  | .frameRevokeAll _ => true
  | .unregisterDiscovery _ => true
  | .uninstallFrameCallback _ => true
  | .uninstallDiscoveryCallback _ => true
  | _ => false

/-- The view `v'` has what `v` has, though it may have given up queueing. -/
structure Keeps (v v' : Holdings) : Prop where
  camera : v'.camera = v.camera
  callback : v'.callback = v.callback
  slots : v'.slots = v.slots
  discoveryCallback : v'.discoveryCallback = v.discoveryCallback
  registration : v'.registration = v.registration
  unqueued : ∀ slot ∈ v'.unqueued, slot ∈ v.unqueued

/-- **A call that gives nothing back, and is issued nothing, leaves an owner what it has.** -/
theorem keeps_afterCall {v : Holdings} {c : PortCall} {r : c.Resp} (hissued : issued ⟨c, r⟩ = none)
    (hback : c.givesBack = false) : Keeps v (afterCall v c r) := by
  rw [afterCall_fields]
  cases c with
  | openCamera id =>
      rcases r with (e | h) | m
      · exact ⟨rfl, rfl, rfl, rfl, rfl, fun _ h => h⟩
      · cases hissued
      · exact ⟨rfl, rfl, rfl, rfl, rfl, fun _ h => h⟩
  | announceFrame h size =>
      rcases r with e | slot
      · exact ⟨rfl, rfl, rfl, rfl, rfl, fun _ h => absurd h List.not_mem_nil⟩
      · cases hissued
  | captureStart h =>
      rcases r with e | ⟨⟨⟩⟩
      · exact ⟨rfl, rfl, rfl, rfl, rfl, fun _ h => absurd h List.not_mem_nil⟩
      · exact ⟨rfl, rfl, rfl, rfl, rfl, fun _ h => h⟩
  | queueFrame h slot cb =>
      rcases r with e | ⟨⟨⟩⟩
      · exact ⟨rfl, rfl, rfl, rfl, rfl, fun _ h => absurd h List.not_mem_nil⟩
      · exact ⟨rfl, rfl, rfl, rfl, rfl, fun _ h => List.mem_of_mem_tail h⟩
  | captureEnd h => exact ⟨rfl, rfl, rfl, rfl, rfl, fun _ h => absurd h List.not_mem_nil⟩
  | registerDiscovery cb =>
      rcases r with e | r'
      · exact ⟨rfl, rfl, rfl, rfl, rfl, fun _ h => h⟩
      · cases hissued
  | installFrameCallback f => cases hissued
  | installDiscoveryCallback f => cases hissued
  | closeCamera h => cases hback
  | frameRevokeAll h => cases hback
  | unregisterDiscovery r' => cases hback
  | uninstallFrameCallback id => cases hback
  | uninstallDiscoveryCallback id => cases hback
  | _ => exact ⟨rfl, rfl, rfl, rfl, rfl, fun _ h => h⟩

/-- The owner's entry of a table of frame callbacks. -/
def ownsFrameCallback (v : Holdings) (cb : FrameCallbackId) (f : FrameCallback) : Prop :=
  v.callback = some (cb, f)

/-- The owner's entry of a table of discovery callbacks. -/
def ownsDiscoveryCallback (v : Holdings) (cb : DiscoveryCallbackId) (f : DiscoveryCallback) : Prop :=
  v.discoveryCallback = some (cb, f)

/-! ## Tables of callbacks -/

section Callbacks

variable {ι : Type} [DecidableEq ι] {E : FrameCallbackId → Prop} {E' : DiscoveryCallbackId → Prop}
  {L : ι → Holdings} {x : ι}

/-- An installed frame callback is an entry of its owner. -/
theorem tracks_installFrame {s : Finmap fun _ : FrameCallbackId => FrameCallback}
    (h : Tracks E (fun k => s.lookup k) ownsFrameCallback L) (hnone : (L x).callback = none)
    {cb : FrameCallbackId} (hfresh : s.lookup cb = none) (f : FrameCallback) :
    Tracks E (fun k => (s.insert cb f).lookup k) ownsFrameCallback
      (Function.update L x { L x with callback := some (cb, f) }) := by
  refine h.lookup_insert x (Or.inr hfresh) fun k g => ?_
  simp [ownsFrameCallback, hnone, eq_comm]

theorem tracks_uninstallFrame {s : Finmap fun _ : FrameCallbackId => FrameCallback}
    (h : Tracks E (fun k => s.lookup k) ownsFrameCallback L) {cb : FrameCallbackId}
    (hcb : (L x).callbackId = some cb) :
    Tracks E (fun k => (s.erase cb).lookup k) ownsFrameCallback
      (Function.update L x { L x with callback := none }) := by
  obtain ⟨f, hv⟩ := Holdings.callbackId_eq_some.mp hcb
  refine h.lookup_erase x (Or.inl ⟨f, hv⟩) fun k g => ?_
  simp only [ownsFrameCallback, hv, reduceCtorEq, Option.some.injEq, Prod.mk.injEq, false_iff, not_and]
  rintro hne rfl
  exact absurd rfl hne

/-- An owner has one frame callback installed at a time. -/
theorem not_promised {v : Holdings} {cb : FrameCallbackId} {f : FrameCallback}
    (hv : v.callback = some (cb, f)) (hE : ¬ E cb) {cb' : FrameCallbackId} {f' : FrameCallback}
    (hv' : v.callback = some (cb', f')) : ¬ E cb' := by
  cases hv.symm.trans hv'
  exact hE

/-- A frame callback that may be abandoned. -/
theorem tracks_abandonFrame {s : Finmap fun _ : FrameCallbackId => FrameCallback}
    (h : Tracks E (fun k => s.lookup k) ownsFrameCallback L)
    (hE : ∀ cb f, (L x).callback = some (cb, f) → ¬ E cb) :
    Tracks E (fun k => s.lookup k) ownsFrameCallback
      (Function.update L x { L x with callback := none }) :=
  h.forget x (fun _ _ hown => by cases hown) fun cb f hcb hown => absurd hcb (hE cb f hown)

/-- An installed discovery callback is an entry of its owner. -/
theorem tracks_installDiscovery {s : Finmap fun _ : DiscoveryCallbackId => DiscoveryCallback}
    (h : Tracks E' (fun k => s.lookup k) ownsDiscoveryCallback L)
    (hnone : (L x).discoveryCallback = none) {cb : DiscoveryCallbackId}
    (hfresh : s.lookup cb = none) (f : DiscoveryCallback) :
    Tracks E' (fun k => (s.insert cb f).lookup k) ownsDiscoveryCallback
      (Function.update L x { L x with discoveryCallback := some (cb, f) }) := by
  refine h.lookup_insert x (Or.inr hfresh) fun k g => ?_
  simp [ownsDiscoveryCallback, hnone, eq_comm]

theorem tracks_uninstallDiscovery {s : Finmap fun _ : DiscoveryCallbackId => DiscoveryCallback}
    (h : Tracks E' (fun k => s.lookup k) ownsDiscoveryCallback L) {cb : DiscoveryCallbackId}
    (hcb : (L x).discoveryCallbackId = some cb) :
    Tracks E' (fun k => (s.erase cb).lookup k) ownsDiscoveryCallback
      (Function.update L x { L x with discoveryCallback := none }) := by
  obtain ⟨f, hv⟩ := Holdings.discoveryCallbackId_eq_some.mp hcb
  refine h.lookup_erase x (Or.inl ⟨f, hv⟩) fun k g => ?_
  simp only [ownsDiscoveryCallback, hv, reduceCtorEq, Option.some.injEq, Prod.mk.injEq, false_iff,
    not_and]
  rintro hne rfl
  exact absurd rfl hne

end Callbacks

/-- A runtime in which every call succeeds and the identifiers are counted. -/
def countingRuntime : VmbRuntime Nat := fun n c =>
  match c with
  | .startup => (.ok (), n)
  | .shutdown => ((), n)
  | .listCameras => (.ok [], n)
  | .openCamera _ =>
    (if h : UInt64.ofNat n ≠ 0 then .returned (.ok ⟨⟨_, h⟩⟩) else .panicked "wrapped", n + 1)
  | .closeCamera _ => ((), n)
  | .loadSettings _ _ => (.ok (), n)
  | .runFeatureCommand _ _ => (.ok (), n)
  | .payloadSize _ => (.ok 1024, n)
  | .announceFrame _ _ => (.ok ⟨UInt64.ofNat n⟩, n + 1)
  | .captureStart _ => (.ok (), n)
  | .queueFrame _ _ _ => (.ok (), n)
  | .captureEnd _ => ((), n)
  | .captureQueueFlush _ => ((), n)
  | .frameRevokeAll _ => ((), n)
  | .registerDiscovery _ => (.ok ⟨UInt64.ofNat n⟩, n + 1)
  | .unregisterDiscovery _ => ((), n)
  | .installFrameCallback _ => (⟨UInt64.ofNat n⟩, n + 1)
  | .uninstallFrameCallback _ => ((), n)
  | .installDiscoveryCallback _ => (⟨UInt64.ofNat n⟩, n + 1)
  | .uninstallDiscoveryCallback _ => ((), n)

end Vmb.Core

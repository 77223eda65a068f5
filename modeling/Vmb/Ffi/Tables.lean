/-
# Vmb.Ffi.Tables -- the tables of the adapter and what the owners hold

`Tables E s L` relates the tables of the adapter to the views of the owners. Cameras, discovery
callbacks and registrations are exactly what the owners hold, and so are the frame callbacks that
`E` promises (nobody has abandoned them). The frame table is different: `frame_revoke_all` clears it for
everybody, so it holds some announced slots, and at least those an owner is still going to queue.
A call of an owner keeps this (`Tables.step`), provided a `frame_revoke_all` is not made while another
owner is still going to queue frames.
-/
import Vmb.Core.Trace
import Vmb.Ffi.Step
import Vmb.Lib.Tracks

namespace Vmb.Ffi

open Vmb.Lib Vmb.Core Vmb.Sdk

/-! ## Who owns which entry -/

def ownsCamera (v : Holdings) (h : CameraHandle) (_ : Unit) : Prop := v.handle = some h

def ownsRegistration (v : Holdings) (r : DiscoveryRegistrationHandle) (_ : Unit) : Prop :=
  v.registration = some r

variable {ι : Type} {E : FrameCallbackId → Prop}

/-- The tables of the adapter while the owners hold `L`. -/
structure Tables (E : FrameCallbackId → Prop) (s : FfiState) (L : ι → Holdings) : Prop where
  cameras : Tracks (fun _ => True) (present s.cameras) ownsCamera L
  frameCallbacks : Tracks E (fun cb => s.frameCallbacks.lookup cb) ownsFrameCallback L
  discoveryCallbacks : Tracks (fun _ => True) (fun cb => s.discoveryCallbacks.lookup cb)
    ownsDiscoveryCallback L
  discoveryRegs : Tracks (fun _ => True) (present s.discoveryRegs) ownsRegistration L
  frames : ∀ slot ∈ s.frames, ∃ x, slot ∈ (L x).slots
  unqueued : ∀ x, ∀ slot ∈ (L x).unqueued, slot ∈ s.frames
  cameras_lt : Bounded CameraHandle.asU64 s.counter (present s.cameras)
  frameCallbacks_lt : Bounded FrameCallbackId.id s.counter fun cb => s.frameCallbacks.lookup cb
  discoveryCallbacks_lt :
    Bounded DiscoveryCallbackId.id s.counter fun cb => s.discoveryCallbacks.lookup cb
  discoveryRegs_lt : Bounded DiscoveryRegistrationHandle.id s.counter (present s.discoveryRegs)

theorem tables_new {L : ι → Holdings} (hL : ∀ x, L x = {}) : Tables E .new L where
  cameras := Tracks.empty (fun _ => rfl) fun x h _ hh => by simp [ownsCamera, hL, Holdings.handle] at hh
  frameCallbacks := Tracks.empty (fun _ => rfl) fun x cb f hcb => by simp [ownsFrameCallback, hL] at hcb
  discoveryCallbacks := Tracks.empty (fun _ => rfl) fun x cb f hcb => by
    simp [ownsDiscoveryCallback, hL] at hcb
  discoveryRegs := Tracks.empty (fun _ => rfl) fun x r _ hr => by simp [ownsRegistration, hL] at hr
  frames slot hslot := absurd hslot Finmap.notMem_empty
  unqueued x slot hslot := by simp [hL] at hslot
  cameras_lt := bounded_empty fun _ => rfl
  frameCallbacks_lt := bounded_empty fun _ => rfl
  discoveryCallbacks_lt := bounded_empty fun _ => rfl
  discoveryRegs_lt := bounded_empty fun _ => rfl

namespace Tables

variable {s s' : FfiState} {L : ι → Holdings} {x : ι}

/-! ## What an owner holds is in the tables -/

theorem camera_mem (hs : Tables E s L) {h : CameraHandle} (hh : (L x).handle = some h) :
    ∃ raw, s.cameras.lookup h = some raw :=
  Finmap.mem_iff.mp (present_eq_some.mp (hs.cameras.covers x h () hh))

theorem frameCallback_mem (hs : Tables E s L) {cb : FrameCallbackId}
    (hcb : (L x).callbackId = some cb) : ∃ f, s.frameCallbacks.lookup cb = some f := by
  obtain ⟨f, hv⟩ := Holdings.callbackId_eq_some.mp hcb
  exact ⟨f, hs.frameCallbacks.covers x cb f hv⟩

theorem discoveryCallback_mem (hs : Tables E s L) {cb : DiscoveryCallbackId}
    (hcb : (L x).discoveryCallbackId = some cb) : ∃ f, s.discoveryCallbacks.lookup cb = some f := by
  obtain ⟨f, hv⟩ := Holdings.discoveryCallbackId_eq_some.mp hcb
  exact ⟨f, hs.discoveryCallbacks.covers x cb f hv⟩

theorem registration_mem (hs : Tables E s L) {r : DiscoveryRegistrationHandle}
    (hr : (L x).registration = some r) : ∃ reg, s.discoveryRegs.lookup r = some reg :=
  Finmap.mem_iff.mp (present_eq_some.mp (hs.discoveryRegs.covers x r () hr))

/-- **The adapter refuses a call of an owner only for a NUL byte in its argument.** -/
theorem refuses_cases (hs : Tables E s L) {c : PortCall} (hc : mayCall (L x) c)
    (hr : Refuses s c) :
    (∃ id, c = .openCamera id ∧ (0 : UInt8) ∈ bytes id) ∨
      ∃ h path, c = .loadSettings h path ∧ (0 : UInt8) ∈ lossy path := by
  have hcamera : ∀ {h}, (L x).handle = some h → s.cameras.lookup h ≠ none := by
    intro h hh hnone
    obtain ⟨raw, hraw⟩ := hs.camera_mem hh
    rw [hnone] at hraw
    cases hraw
  cases c with
  | openCamera id => exact Or.inl ⟨id, rfl, hr⟩
  | loadSettings h path => exact Or.inr ⟨h, path, rfl, hr.resolve_left (hcamera hc)⟩
  | runFeatureCommand h name =>
      -- An owner runs two commands only, and neither name has a NUL byte.
      rcases hr with hr | hr
      · exact absurd hr (hcamera hc.1)
      · have hname : name = featureAcquisitionStart ∨ name = featureAcquisitionStop :=
          hc.2.imp And.left id
        rcases hname with rfl | rfl
        · exact absurd hr (by decide)
        · exact absurd hr (by decide)
  | queueFrame h slot cb =>
      obtain ⟨hh, hcb, -, hslot⟩ := hc
      rcases hr with hr | hr | hr
      · exact absurd hr (hcamera hh)
      · obtain ⟨f, hf⟩ := hs.frameCallback_mem hcb
        rw [hr] at hf
        cases hf
      · have hmem := hs.unqueued x slot (List.mem_of_mem_head? hslot)
        exact absurd hmem (Finmap.lookup_eq_none.mp hr)
  | registerDiscovery cb =>
      obtain ⟨f, hf⟩ := hs.discoveryCallback_mem hc.1
      rw [show s.discoveryCallbacks.lookup cb = none from hr] at hf
      cases hf
  | unregisterDiscovery r =>
      obtain ⟨reg, hreg⟩ := hs.registration_mem hc
      rw [show s.discoveryRegs.lookup r = none from hr] at hreg
      cases hreg
  | closeCamera h => exact absurd hr (hcamera hc.1)
  | payloadSize h => exact absurd hr (hcamera hc)
  | announceFrame h size => exact absurd hr (hcamera hc.1)
  | captureStart h => exact absurd hr (hcamera hc.1)
  | captureEnd h => exact absurd hr (hcamera hc.1)
  | captureQueueFlush h => exact absurd hr (hcamera hc)
  | frameRevokeAll h => exact absurd hr (hcamera hc.1)
  | startup => exact absurd hc id
  | shutdown => exact absurd hc id
  | listCameras => exact absurd hc id
  | _ => exact absurd hr id

/-! ## What a call does to the tables -/

variable [DecidableEq ι] {v' : Holdings}

/-- An owner with at least its old slots leaves no frame without an owner. -/
theorem frames_owned (hs : Tables E s L) (hslots : ∀ slot ∈ (L x).slots, slot ∈ v'.slots) :
    ∀ slot ∈ s.frames, ∃ y, slot ∈ (Function.update L x v' y).slots := by
  intro slot hslot
  obtain ⟨y, hy⟩ := hs.frames slot hslot
  refine ⟨y, ?_⟩
  by_cases hyx : y = x
  · subst hyx
    rw [Function.update_self]
    exact hslots slot hy
  · rw [Function.update_of_ne hyx]
    exact hy

/-- An owner that queues no more than before finds all its frames. -/
theorem unqueued_mem (hs : Tables E s L)
    (hunqueued : ∀ slot ∈ v'.unqueued, slot ∈ (L x).unqueued) :
    ∀ y, ∀ slot ∈ (Function.update L x v' y).unqueued, slot ∈ s.frames := by
  intro y slot hslot
  by_cases hyx : y = x
  · subst hyx
    rw [Function.update_self] at hslot
    exact hs.unqueued y slot (hunqueued slot hslot)
  · rw [Function.update_of_ne hyx] at hslot
    exact hs.unqueued y slot hslot

/-- Neither the view nor the tables change, except for what queueing does to both. -/
theorem keep (hs : Tables E s L) (hv : Keeps (L x) v') (hcameras : s'.cameras = s.cameras)
    (hframeCallbacks : s'.frameCallbacks = s.frameCallbacks)
    (hdiscoveryCallbacks : s'.discoveryCallbacks = s.discoveryCallbacks)
    (hdiscoveryRegs : s'.discoveryRegs = s.discoveryRegs)
    (hframes : ∀ slot, slot ∈ s'.frames ↔ slot ∈ s.frames) (hcounter : s.counter ≤ s'.counter) :
    Tables E s' (Function.update L x v') where
  cameras := by
    rw [hcameras]
    exact hs.cameras.keep x fun h _ => by simp [ownsCamera, Holdings.handle, hv.camera]
  frameCallbacks := by
    rw [hframeCallbacks]
    exact hs.frameCallbacks.keep x fun cb f => by simp [ownsFrameCallback, hv.callback]
  discoveryCallbacks := by
    rw [hdiscoveryCallbacks]
    exact hs.discoveryCallbacks.keep x fun cb f => by
      simp [ownsDiscoveryCallback, hv.discoveryCallback]
  discoveryRegs := by
    rw [hdiscoveryRegs]
    exact hs.discoveryRegs.keep x fun r _ => by simp [ownsRegistration, hv.registration]
  frames slot hslot := by
    refine hs.frames_owned (fun slot hslot => ?_) slot ((hframes slot).mp hslot)
    rw [hv.slots]
    exact hslot
  unqueued y slot hslot := (hframes slot).mpr (hs.unqueued_mem hv.unqueued y slot hslot)
  cameras_lt := by
    rw [hcameras]
    exact hs.cameras_lt.mono hcounter
  frameCallbacks_lt := by
    rw [hframeCallbacks]
    exact hs.frameCallbacks_lt.mono hcounter
  discoveryCallbacks_lt := by
    rw [hdiscoveryCallbacks]
    exact hs.discoveryCallbacks_lt.mono hcounter
  discoveryRegs_lt := by
    rw [hdiscoveryRegs]
    exact hs.discoveryRegs_lt.mono hcounter

/-- A new identifier is in no table. -/
theorem opened (hs : Tables E s L) (hx : L x = {}) (id : String) (raw : VmbHandle)
    (hid : s.currentId ≠ 0) (hids : s.counter < 2 ^ 64) :
    Tables E { s with
        counter := s.counter + 1, cameras := s.cameras.insert ⟨s.currentId, hid⟩ raw }
      (Function.update L x { camera := some (⟨s.currentId, hid⟩, id) }) where
  cameras := by
    rw [present_insert]
    refine hs.cameras.set x (Or.inr (hs.cameras_lt.fresh hids rfl)) fun h u => ?_
    simp [ownsCamera, Holdings.handle, hx, eq_comm]
  frameCallbacks := hs.frameCallbacks.keep x fun cb f => by simp [ownsFrameCallback, hx]
  discoveryCallbacks := hs.discoveryCallbacks.keep x fun cb f => by
    simp [ownsDiscoveryCallback, hx]
  discoveryRegs := hs.discoveryRegs.keep x fun r _ => by simp [ownsRegistration, hx]
  frames := hs.frames_owned (by simp [hx])
  unqueued := hs.unqueued_mem (by simp)
  cameras_lt := hs.cameras_lt.present_insert rfl
  frameCallbacks_lt := hs.frameCallbacks_lt.mono (Nat.le_succ _)
  discoveryCallbacks_lt := hs.discoveryCallbacks_lt.mono (Nat.le_succ _)
  discoveryRegs_lt := hs.discoveryRegs_lt.mono (Nat.le_succ _)

theorem closed (hs : Tables E s L) {h : CameraHandle} (hh : (L x).handle = some h) :
    Tables E { s with cameras := s.cameras.erase h }
      (Function.update L x { L x with camera := none }) where
  cameras := by
    rw [present_erase]
    refine hs.cameras.erase x (Or.inl ⟨(), hh⟩) fun h' u => ?_
    simp only [ownsCamera, Holdings.handle, Option.map_none, reduceCtorEq, false_iff, not_and]
    intro hne hh'
    exact hne (Option.some.inj (hh'.symm.trans hh))
  frameCallbacks := hs.frameCallbacks.keep x fun _ _ => Iff.rfl
  discoveryCallbacks := hs.discoveryCallbacks.keep x fun _ _ => Iff.rfl
  discoveryRegs := hs.discoveryRegs.keep x fun _ _ => Iff.rfl
  frames := hs.frames_owned fun _ h => h
  unqueued := hs.unqueued_mem fun _ h => h
  cameras_lt := hs.cameras_lt.present_erase h
  frameCallbacks_lt := hs.frameCallbacks_lt
  discoveryCallbacks_lt := hs.discoveryCallbacks_lt
  discoveryRegs_lt := hs.discoveryRegs_lt

theorem announced (hs : Tables E s L) (box : Box TrampolineContext) (heap : Heap) :
    Tables E { s with
        heap := heap, counter := s.counter + 1, frames := s.frames.insert ⟨s.currentId⟩ box }
      (Function.update L x { L x with
        slots := (L x).slots ++ [⟨s.currentId⟩], unqueued := (L x).unqueued ++ [⟨s.currentId⟩] }) where
  cameras := hs.cameras.keep x fun _ _ => Iff.rfl
  frameCallbacks := hs.frameCallbacks.keep x fun _ _ => Iff.rfl
  discoveryCallbacks := hs.discoveryCallbacks.keep x fun _ _ => Iff.rfl
  discoveryRegs := hs.discoveryRegs.keep x fun _ _ => Iff.rfl
  frames slot hslot := by
    rcases Finmap.mem_insert.mp hslot with rfl | hslot
    · exact ⟨x, by simp⟩
    · exact hs.frames_owned (fun _ h => List.mem_append_left _ h) slot hslot
  unqueued y slot hslot := by
    refine Finmap.mem_insert.mpr ?_
    by_cases hyx : y = x
    · subst hyx
      rw [Function.update_self] at hslot
      rcases List.mem_append.mp hslot with hslot | hslot
      · exact Or.inr (hs.unqueued y slot hslot)
      · exact Or.inl (List.mem_singleton.mp hslot)
    · rw [Function.update_of_ne hyx] at hslot
      exact Or.inr (hs.unqueued y slot hslot)
  cameras_lt := hs.cameras_lt.mono (Nat.le_succ _)
  frameCallbacks_lt := hs.frameCallbacks_lt.mono (Nat.le_succ _)
  discoveryCallbacks_lt := hs.discoveryCallbacks_lt.mono (Nat.le_succ _)
  discoveryRegs_lt := hs.discoveryRegs_lt.mono (Nat.le_succ _)

/-- The frame table is cleared for everybody, which nobody minds who has queued all frames. -/
theorem revoked (hs : Tables E s L) (hothers : ∀ y, y ≠ x → (L y).unqueued = []) :
    Tables E { s with frames := ∅ }
      (Function.update L x { L x with slots := [], unqueued := [] }) where
  cameras := hs.cameras.keep x fun _ _ => Iff.rfl
  frameCallbacks := hs.frameCallbacks.keep x fun _ _ => Iff.rfl
  discoveryCallbacks := hs.discoveryCallbacks.keep x fun _ _ => Iff.rfl
  discoveryRegs := hs.discoveryRegs.keep x fun _ _ => Iff.rfl
  frames slot hslot := absurd hslot Finmap.notMem_empty
  unqueued y slot hslot := by
    by_cases hyx : y = x
    · subst hyx
      simp at hslot
    · rw [Function.update_of_ne hyx, hothers y hyx] at hslot
      exact absurd hslot List.not_mem_nil
  cameras_lt := hs.cameras_lt
  frameCallbacks_lt := hs.frameCallbacks_lt
  discoveryCallbacks_lt := hs.discoveryCallbacks_lt
  discoveryRegs_lt := hs.discoveryRegs_lt

theorem registered (hs : Tables E s L) (hr : (L x).registration = none) (heap : Heap)
    (reg : DiscoveryRegState) (hids : s.counter < 2 ^ 64) :
    Tables E { s with
        heap := heap, counter := s.counter + 1
        discoveryRegs := s.discoveryRegs.insert ⟨s.currentId⟩ reg }
      (Function.update L x { L x with registration := some ⟨s.currentId⟩ }) where
  cameras := hs.cameras.keep x fun _ _ => Iff.rfl
  frameCallbacks := hs.frameCallbacks.keep x fun _ _ => Iff.rfl
  discoveryCallbacks := hs.discoveryCallbacks.keep x fun _ _ => Iff.rfl
  discoveryRegs := by
    rw [present_insert]
    refine hs.discoveryRegs.set x (Or.inr (hs.discoveryRegs_lt.fresh hids rfl)) fun r u => ?_
    simp [ownsRegistration, hr, eq_comm]
  frames := hs.frames_owned fun _ h => h
  unqueued := hs.unqueued_mem fun _ h => h
  cameras_lt := hs.cameras_lt.mono (Nat.le_succ _)
  frameCallbacks_lt := hs.frameCallbacks_lt.mono (Nat.le_succ _)
  discoveryCallbacks_lt := hs.discoveryCallbacks_lt.mono (Nat.le_succ _)
  discoveryRegs_lt := hs.discoveryRegs_lt.present_insert rfl

theorem unregistered (hs : Tables E s L) {r : DiscoveryRegistrationHandle}
    (hr : (L x).registration = some r) (heap : Heap) :
    Tables E { s with heap := heap, discoveryRegs := s.discoveryRegs.erase r }
      (Function.update L x { L x with registration := none }) where
  cameras := hs.cameras.keep x fun _ _ => Iff.rfl
  frameCallbacks := hs.frameCallbacks.keep x fun _ _ => Iff.rfl
  discoveryCallbacks := hs.discoveryCallbacks.keep x fun _ _ => Iff.rfl
  discoveryRegs := by
    rw [present_erase]
    refine hs.discoveryRegs.erase x (Or.inl ⟨(), hr⟩) fun r' u => ?_
    simp only [ownsRegistration, reduceCtorEq, false_iff, not_and]
    intro hne hr'
    exact hne (Option.some.inj (hr'.symm.trans hr))
  frames := hs.frames_owned fun _ h => h
  unqueued := hs.unqueued_mem fun _ h => h
  cameras_lt := hs.cameras_lt
  frameCallbacks_lt := hs.frameCallbacks_lt
  discoveryCallbacks_lt := hs.discoveryCallbacks_lt
  discoveryRegs_lt := hs.discoveryRegs_lt.present_erase r

theorem installedFrame (hs : Tables E s L) (hcb : (L x).callback = none) (f : FrameCallback)
    (hids : s.counter < 2 ^ 64) :
    Tables E (s.installFrameCallback f).2
      (Function.update L x { L x with callback := some (⟨s.currentId⟩, f) }) where
  cameras := hs.cameras.keep x fun _ _ => Iff.rfl
  frameCallbacks := tracks_installFrame hs.frameCallbacks hcb (hs.frameCallbacks_lt.fresh hids rfl) f
  discoveryCallbacks := hs.discoveryCallbacks.keep x fun _ _ => Iff.rfl
  discoveryRegs := hs.discoveryRegs.keep x fun _ _ => Iff.rfl
  frames := hs.frames_owned fun _ h => h
  unqueued := hs.unqueued_mem fun _ h => h
  cameras_lt := hs.cameras_lt.mono (Nat.le_succ _)
  frameCallbacks_lt := hs.frameCallbacks_lt.lookup_insert rfl
  discoveryCallbacks_lt := hs.discoveryCallbacks_lt.mono (Nat.le_succ _)
  discoveryRegs_lt := hs.discoveryRegs_lt.mono (Nat.le_succ _)

theorem uninstalledFrame (hs : Tables E s L) {cb : FrameCallbackId}
    (hcb : (L x).callbackId = some cb) :
    Tables E (s.uninstallFrameCallback cb)
      (Function.update L x { L x with callback := none }) where
  cameras := hs.cameras.keep x fun _ _ => Iff.rfl
  frameCallbacks := tracks_uninstallFrame hs.frameCallbacks hcb
  discoveryCallbacks := hs.discoveryCallbacks.keep x fun _ _ => Iff.rfl
  discoveryRegs := hs.discoveryRegs.keep x fun _ _ => Iff.rfl
  frames := hs.frames_owned fun _ h => h
  unqueued := hs.unqueued_mem fun _ h => h
  cameras_lt := hs.cameras_lt
  frameCallbacks_lt := hs.frameCallbacks_lt.lookup_erase cb
  discoveryCallbacks_lt := hs.discoveryCallbacks_lt
  discoveryRegs_lt := hs.discoveryRegs_lt

theorem installedDiscovery (hs : Tables E s L) (hcb : (L x).discoveryCallback = none)
    (f : DiscoveryCallback) (hids : s.counter < 2 ^ 64) :
    Tables E (s.installDiscoveryCallback f).2
      (Function.update L x { L x with discoveryCallback := some (⟨s.currentId⟩, f) }) where
  cameras := hs.cameras.keep x fun _ _ => Iff.rfl
  frameCallbacks := hs.frameCallbacks.keep x fun _ _ => Iff.rfl
  discoveryCallbacks :=
    tracks_installDiscovery hs.discoveryCallbacks hcb (hs.discoveryCallbacks_lt.fresh hids rfl) f
  discoveryRegs := hs.discoveryRegs.keep x fun _ _ => Iff.rfl
  frames := hs.frames_owned fun _ h => h
  unqueued := hs.unqueued_mem fun _ h => h
  cameras_lt := hs.cameras_lt.mono (Nat.le_succ _)
  frameCallbacks_lt := hs.frameCallbacks_lt.mono (Nat.le_succ _)
  discoveryCallbacks_lt := hs.discoveryCallbacks_lt.lookup_insert rfl
  discoveryRegs_lt := hs.discoveryRegs_lt.mono (Nat.le_succ _)

theorem uninstalledDiscovery (hs : Tables E s L) {cb : DiscoveryCallbackId}
    (hcb : (L x).discoveryCallbackId = some cb) :
    Tables E (s.uninstallDiscoveryCallback cb)
      (Function.update L x { L x with discoveryCallback := none }) where
  cameras := hs.cameras.keep x fun _ _ => Iff.rfl
  frameCallbacks := hs.frameCallbacks.keep x fun _ _ => Iff.rfl
  discoveryCallbacks := tracks_uninstallDiscovery hs.discoveryCallbacks hcb
  discoveryRegs := hs.discoveryRegs.keep x fun _ _ => Iff.rfl
  frames := hs.frames_owned fun _ h => h
  unqueued := hs.unqueued_mem fun _ h => h
  cameras_lt := hs.cameras_lt
  frameCallbacks_lt := hs.frameCallbacks_lt
  discoveryCallbacks_lt := hs.discoveryCallbacks_lt.lookup_erase cb
  discoveryRegs_lt := hs.discoveryRegs_lt

/-- If the callback may be abandoned, abandoning it goes unnoticed. -/
theorem abandon (hs : Tables E s L) (hE : ∀ cb f, (L x).callback = some (cb, f) → ¬ E cb) :
    Tables E s (Function.update L x { L x with callback := none }) :=
  { hs with
    cameras := hs.cameras.keep x fun _ _ => Iff.rfl
    frameCallbacks := tracks_abandonFrame hs.frameCallbacks hE
    discoveryCallbacks := hs.discoveryCallbacks.keep x fun _ _ => Iff.rfl
    discoveryRegs := hs.discoveryRegs.keep x fun _ _ => Iff.rfl
    frames := hs.frames_owned fun _ h => h
    unqueued := hs.unqueued_mem fun _ h => h }

omit [DecidableEq ι] in
/-- An owner may give up frames it was going to queue. -/
theorem fewer (hs : Tables E s L) {L' : ι → Holdings}
    (hL : ∀ x, L' x = { L x with unqueued := (L' x).unqueued })
    (hunqueued : ∀ x, ∀ slot ∈ (L' x).unqueued, slot ∈ (L x).unqueued) : Tables E s L' :=
  { hs with
    cameras := hs.cameras.congr fun x h _ => by rw [hL x]; rfl
    frameCallbacks := hs.frameCallbacks.congr fun x cb f => by rw [hL x]; rfl
    discoveryCallbacks := hs.discoveryCallbacks.congr fun x cb f => by rw [hL x]; rfl
    discoveryRegs := hs.discoveryRegs.congr fun x r _ => by rw [hL x]; rfl
    frames := fun slot hslot => (hs.frames slot hslot).imp fun x hx => by rw [hL x]; exact hx
    unqueued := fun x slot hslot => hs.unqueued x slot (hunqueued x slot hslot) }

/-- **A call of an owner keeps the tables**, if no other owner is still going to queue frames when it
revokes. -/
theorem step (hs : Tables E s L) {c : PortCall} (hc : mayCall (L x) c) {evs : List (Event VmbC)}
    {r : c.Resp} (hstep : Step s c evs r s') (hids : s'.counter ≤ 2 ^ 64)
    (hrevoke : ∀ h, c = .frameRevokeAll h → ∀ y, y ≠ x → (L y).unqueued = []) :
    Tables E s' (Function.update L x (afterCall (L x) c r)) := by
  cases hstep with
  | lifecycle c evs r b hc' hevs =>
      rcases hc' with rfl | rfl
      · exact absurd hc id
      · exact absurd hc id
  | quiet c evs r hr hevs =>
      have hkeeps : Keeps (L x) (afterCall (L x) c r) := by
        cases c with
        | listCameras => exact absurd hc id
        | loadSettings h path => exact keeps_afterCall rfl rfl
        | runFeatureCommand h name => exact keeps_afterCall rfl rfl
        | payloadSize h => exact keeps_afterCall rfl rfl
        | captureStart h => exact keeps_afterCall rfl rfl
        | captureEnd h => exact keeps_afterCall rfl rfl
        | captureQueueFlush h => exact keeps_afterCall rfl rfl
        | _ => exact absurd hr id
      exact hs.keep hkeeps rfl rfl rfl rfl (fun _ => Iff.rfl) (Nat.le_refl _)
  | refused c r hc' hr =>
      have hkeeps : Keeps (L x) (afterCall (L x) c r) := by
        rcases hs.refuses_cases hc hc' with ⟨id, rfl, -⟩ | ⟨h, path, rfl, -⟩
        · obtain ⟨context, rfl⟩ := hr
          exact keeps_afterCall rfl rfl
        · exact keeps_afterCall rfl rfl
      exact hs.keep hkeeps rfl rfl rfl rfl (fun _ => Iff.rfl) (Nat.le_refl _)
  | openFailed id cId rc raw hc' hrc =>
      exact hs.keep (keeps_afterCall rfl rfl) rfl rfl rfl rfl (fun _ => Iff.rfl) (Nat.le_refl _)
  | opened id cId raw hc' hid =>
      have hview : afterCall (L x) (.openCamera id) (.returned (.ok ⟨s.currentId, hid⟩)) =
          { camera := some (⟨s.currentId, hid⟩, id) } := by
        rw [show L x = {} from hc]
        rfl
      rw [hview]
      exact hs.opened hc id raw hid hids
  | openPanicked id cId raw m hc' hid =>
      exact hs.keep (keeps_afterCall rfl rfl) rfl rfl rfl rfl (fun _ => Iff.rfl) (Nat.le_succ _)
  | closed h raw rc hraw => exact hs.closed hc.1
  | announceFailed h size raw rc hraw hrc =>
      exact hs.keep (keeps_afterCall rfl rfl) rfl rfl rfl rfl (fun _ => Iff.rfl) (Nat.le_refl _)
  | announced h size raw hraw => exact hs.announced _ _
  | queued h slot cb raw f box rc hraw hcb hslot =>
      -- The context changes under its slot, and the view counts slots only.
      have hframes : ∀ slot', slot' ∈ s.frames.insert slot (queuedBox box f) ↔ slot' ∈ s.frames := by
        intro slot'
        rw [Finmap.mem_insert, or_iff_right_of_imp]
        rintro rfl
        exact Finmap.mem_of_lookup_eq_some hslot
      exact hs.keep (keeps_afterCall rfl rfl) rfl rfl rfl rfl hframes (Nat.le_refl _)
  | revoked h raw rc hraw => exact hs.revoked (hrevoke h rfl)
  | registerFailed cb f rc hcb hrc =>
      exact hs.keep (keeps_afterCall rfl rfl) rfl rfl rfl rfl (fun _ => Iff.rfl) (Nat.le_refl _)
  | registered cb f hcb => exact hs.registered hc.2 _ _ hids
  | unregistered r reg rc hreg => exact hs.unregistered hc _
  | installedFrame f => exact hs.installedFrame hc.2 f hids
  | uninstalledFrame id => exact hs.uninstalledFrame hc.1
  | installedDiscovery f =>
      exact hs.installedDiscovery (by rw [show L x = {} from hc]) f hids
  | uninstalledDiscovery id => exact hs.uninstalledDiscovery hc.1

end Tables

end Vmb.Ffi

/-
# Vmb.Fake.Tables -- the tables of the fake and what the owners hold

The six tables of the fake are exactly the union of what the owners hold: cameras under their ids,
slots under the handle of the camera, the frames queued in the open capture, callbacks with their
closures and registrations with their callback. Unlike the adapter, the fake revokes the slots of
one camera only, so no condition on the other owners is needed (`Tables.step`).
-/
import Vmb.Core.Trace
import Vmb.Fake.Step

namespace Vmb.Fake

open Vmb.Lib Vmb.Core

/-! ## Who owns which entry -/

def ownsCamera (v : Holdings) (h : CameraHandle) (id : String) : Prop := v.camera = some (h, id)

def ownsSlot (v : Holdings) (slot : FrameSlotId) (h : CameraHandle) : Prop :=
  slot ∈ v.slots ∧ v.handle = some h

def ownsCapture (v : Holdings) (h : CameraHandle) (w : List (FrameSlotId × FrameCallbackId)) :
    Prop := v.handle = some h ∧ v.window = some w

def ownsRegistration (v : Holdings) (r : DiscoveryRegistrationHandle) (cb : DiscoveryCallbackId) :
    Prop := v.registration = some r ∧ v.discoveryCallbackId = some cb

/-- Who has a registration has its callback installed. -/
def Subscribed (v : Holdings) : Prop := v.registration.isSome → v.discoveryCallbackId.isSome

theorem subscribed_afterCall {v : Holdings} {c : PortCall} {r : c.Resp} (hv : Subscribed v)
    (hc : mayCall v c) : Subscribed (afterCall v c r) := by
  rw [afterCall_fields]
  cases c with
  | registerDiscovery cb =>
      rcases r with e | r
      · exact hv
      · intro _
        show v.discoveryCallbackId.isSome
        rw [hc.1]
        rfl
  | unregisterDiscovery r => exact fun hsome => absurd hsome Bool.false_ne_true
  | installDiscoveryCallback f => exact fun _ => rfl
  | uninstallDiscoveryCallback cb =>
      intro hsome
      have hnone : (none : Option DiscoveryRegistrationHandle).isSome := hc.2 ▸ hsome
      exact absurd hnone Bool.false_ne_true
  | _ => exact hv

variable {ι : Type} {E : FrameCallbackId → Prop}

/-- The tables of the fake while the owners hold `L`. -/
structure Tables (E : FrameCallbackId → Prop) (s : FakeState) (L : ι → Holdings) : Prop where
  cameras : Tracks (fun _ => True) (fun h => s.cameras.lookup h) ownsCamera L
  announcedFrames : Tracks (fun _ => True) (fun slot => s.announcedFrames.lookup slot) ownsSlot L
  activeCaptures : Tracks (fun _ => True) (fun h => s.activeCaptures.lookup h) ownsCapture L
  frameCallbacks : Tracks E (fun cb => s.frameCallbacks.lookup cb) ownsFrameCallback L
  discoveryCallbacks : Tracks (fun _ => True) (fun cb => s.discoveryCallbacks.lookup cb)
    ownsDiscoveryCallback L
  discoveryRegs : Tracks (fun _ => True) (fun r => s.discoveryRegs.lookup r) ownsRegistration L

/-- The identifiers in the tables come from the counter. -/
structure Counted (s : FakeState) : Prop where
  cameras : Bounded CameraHandle.asU64 s.counter fun h => s.cameras.lookup h
  announcedFrames : Bounded FrameSlotId.id s.counter fun slot => s.announcedFrames.lookup slot
  frameCallbacks : Bounded FrameCallbackId.id s.counter fun cb => s.frameCallbacks.lookup cb
  discoveryCallbacks :
    Bounded DiscoveryCallbackId.id s.counter fun cb => s.discoveryCallbacks.lookup cb
  discoveryRegs : Bounded DiscoveryRegistrationHandle.id s.counter fun r => s.discoveryRegs.lookup r

theorem tables_configured (config : Config) {L : ι → Holdings} (hL : ∀ x, L x = {}) :
    Tables E (.configured config) L where
  cameras := Tracks.empty (fun _ => rfl) fun x h id hown => by simp [ownsCamera, hL] at hown
  announcedFrames := Tracks.empty (fun _ => rfl) fun x slot h hown => by simp [ownsSlot, hL] at hown
  activeCaptures := Tracks.empty (fun _ => rfl) fun x h w hown => by simp [ownsCapture, hL] at hown
  frameCallbacks := Tracks.empty (fun _ => rfl) fun x cb f hown => by
    simp [ownsFrameCallback, hL] at hown
  discoveryCallbacks := Tracks.empty (fun _ => rfl) fun x cb f hown => by
    simp [ownsDiscoveryCallback, hL] at hown
  discoveryRegs := Tracks.empty (fun _ => rfl) fun x r cb hown => by
    simp [ownsRegistration, hL] at hown

theorem counted_configured (config : Config) : Counted (.configured config) :=
  ⟨bounded_empty fun _ => rfl, bounded_empty fun _ => rfl, bounded_empty fun _ => rfl,
    bounded_empty fun _ => rfl, bounded_empty fun _ => rfl⟩

/-! ## The counter -/

variable {s s' : FakeState} {c : PortCall} {r : c.Resp}

theorem Effect.counter_le (h : Effect s c r s') : s.counter ≤ s'.counter := by
  cases h <;> first | exact Nat.le_refl _ | exact Nat.le_succ _

theorem Effect.counted (h : Effect s c r s') (hs : Counted s) : Counted s' := by
  obtain ⟨hcameras, hframes, hcallbacks, hdiscovery, hregs⟩ := hs
  have hmono := h.counter_le
  cases h with
  | opened id hid =>
      exact ⟨hcameras.lookup_insert rfl, hframes.mono hmono, hcallbacks.mono hmono,
        hdiscovery.mono hmono, hregs.mono hmono⟩
  | closed h =>
      exact ⟨hcameras.lookup_erase h, hframes, hcallbacks, hdiscovery, hregs⟩
  | announced h size =>
      exact ⟨hcameras.mono hmono, hframes.lookup_insert rfl, hcallbacks.mono hmono,
        hdiscovery.mono hmono, hregs.mono hmono⟩
  | revoked h =>
      exact ⟨hcameras, fun slot owner hslot => hframes slot owner (lookup_retain_eq_some.mp hslot).1,
        hcallbacks, hdiscovery, hregs⟩
  | registered cb =>
      exact ⟨hcameras.mono hmono, hframes.mono hmono, hcallbacks.mono hmono, hdiscovery.mono hmono,
        hregs.lookup_insert rfl⟩
  | unregistered r =>
      exact ⟨hcameras, hframes, hcallbacks, hdiscovery, hregs.lookup_erase r⟩
  | installedFrame f =>
      exact ⟨hcameras.mono hmono, hframes.mono hmono, hcallbacks.lookup_insert rfl,
        hdiscovery.mono hmono, hregs.mono hmono⟩
  | uninstalledFrame id =>
      exact ⟨hcameras, hframes, hcallbacks.lookup_erase id, hdiscovery, hregs⟩
  | installedDiscovery f =>
      exact ⟨hcameras.mono hmono, hframes.mono hmono, hcallbacks.mono hmono,
        hdiscovery.lookup_insert rfl, hregs.mono hmono⟩
  | uninstalledDiscovery id =>
      exact ⟨hcameras, hframes, hcallbacks, hdiscovery.lookup_erase id, hregs⟩
  | _ => exact ⟨hcameras.mono hmono, hframes.mono hmono, hcallbacks.mono hmono, hdiscovery.mono hmono,
      hregs.mono hmono⟩

/-! ## What a call does to the tables -/

namespace Tables

variable {L : ι → Holdings} {x : ι} {v' : Holdings}

/-- No two owners have the same camera. -/
theorem eq_of_handle (hs : Tables E s L) {x y : ι} {h : CameraHandle} (hx : (L x).handle = some h)
    (hy : (L y).handle = some h) : x = y := by
  obtain ⟨id₁, hx⟩ := Holdings.handle_eq_some.mp hx
  obtain ⟨id₂, hy⟩ := Holdings.handle_eq_some.mp hy
  exact hs.cameras.unique x y h id₁ id₂ hx hy

/-- A camera without an open capture has no entry. -/
theorem noCapture (hs : Tables E s L) {h : CameraHandle} (hh : (L x).handle = some h)
    (hw : (L x).window = none) : s.activeCaptures.lookup h = none := by
  rcases hw' : s.activeCaptures.lookup h with - | w
  · rfl
  · obtain ⟨y, hy, hwindow⟩ := hs.activeCaptures.owned h w trivial hw'
    obtain rfl := hs.eq_of_handle hh hy
    rw [hw] at hwindow
    cases hwindow

variable [DecidableEq ι]

/-- Neither the view nor the tables change. -/
theorem keep (hs : Tables E s L) (hv : Keeps (L x) v') (hwindow : v'.window = (L x).window) :
    Tables E s (Function.update L x v') where
  cameras := hs.cameras.keep x fun h id => by simp [ownsCamera, hv.camera]
  announcedFrames := hs.announcedFrames.keep x fun slot h => by
    simp [ownsSlot, Holdings.handle, hv.camera, hv.slots]
  activeCaptures := hs.activeCaptures.keep x fun h w => by
    simp [ownsCapture, Holdings.handle, hv.camera, hwindow]
  frameCallbacks := hs.frameCallbacks.keep x fun cb f => by simp [ownsFrameCallback, hv.callback]
  discoveryCallbacks := hs.discoveryCallbacks.keep x fun cb f => by
    simp [ownsDiscoveryCallback, hv.discoveryCallback]
  discoveryRegs := hs.discoveryRegs.keep x fun r cb => by
    simp [ownsRegistration, Holdings.discoveryCallbackId, hv.discoveryCallback, hv.registration]

theorem opened (hs : Tables E s L) (hx : L x = {}) (id : String) {h : CameraHandle}
    (hfresh : s.cameras.lookup h = none) :
    Tables E { s with counter := s.counter + 1, cameras := s.cameras.insert h id }
      (Function.update L x { camera := some (h, id) }) where
  cameras := by
    refine hs.cameras.lookup_insert x (Or.inr hfresh) fun h' id' => ?_
    simp [ownsCamera, hx, eq_comm]
  announcedFrames := hs.announcedFrames.keep x fun slot h' => by simp [ownsSlot, hx]
  activeCaptures := hs.activeCaptures.keep x fun h' w => by simp [ownsCapture, hx]
  frameCallbacks := hs.frameCallbacks.keep x fun cb f => by simp [ownsFrameCallback, hx]
  discoveryCallbacks := hs.discoveryCallbacks.keep x fun cb f => by simp [ownsDiscoveryCallback, hx]
  discoveryRegs := hs.discoveryRegs.keep x fun r cb => by simp [ownsRegistration, hx]

theorem closed (hs : Tables E s L) {h : CameraHandle} (hh : (L x).handle = some h)
    (hslots : (L x).slots = []) (hw : (L x).window = none) :
    Tables E { s with cameras := s.cameras.erase h, activeCaptures := s.activeCaptures.erase h }
      (Function.update L x { L x with camera := none }) where
  cameras := by
    obtain ⟨id, hv⟩ := Holdings.handle_eq_some.mp hh
    refine hs.cameras.lookup_erase x (Or.inl ⟨id, hv⟩) fun k id' => ?_
    simp only [ownsCamera, hv, reduceCtorEq, Option.some.injEq, Prod.mk.injEq, false_iff, not_and]
    rintro hne rfl
    exact absurd rfl hne
  announcedFrames := hs.announcedFrames.keep x fun slot h' => by simp [ownsSlot, hslots]
  activeCaptures := by
    refine hs.activeCaptures.lookup_erase x (Or.inr (hs.noCapture hh hw)) fun k w => ?_
    simp [ownsCapture, hw]
  frameCallbacks := hs.frameCallbacks.keep x fun _ _ => Iff.rfl
  discoveryCallbacks := hs.discoveryCallbacks.keep x fun _ _ => Iff.rfl
  discoveryRegs := hs.discoveryRegs.keep x fun _ _ => Iff.rfl

theorem announced (hs : Tables E s L) {h : CameraHandle} (hh : (L x).handle = some h)
    {slot : FrameSlotId} (hfresh : s.announcedFrames.lookup slot = none) :
    Tables E { s with
        counter := s.counter + 1, announcedFrames := s.announcedFrames.insert slot h }
      (Function.update L x { L x with
        slots := (L x).slots ++ [slot], unqueued := (L x).unqueued ++ [slot] }) where
  cameras := hs.cameras.keep x fun _ _ => Iff.rfl
  announcedFrames := by
    refine hs.announcedFrames.lookup_insert x (Or.inr hfresh) fun k owner => ?_
    have hnew : slot ∉ (L x).slots := fun hmem =>
      hs.announcedFrames.not_own_of_none hfresh x h ⟨hmem, hh⟩
    show k ∈ (L x).slots ++ [slot] ∧ (L x).handle = some owner ↔ _
    rw [hh, List.mem_append, List.mem_singleton, ownsSlot, hh]
    by_cases hk : k = slot
    · simp [hk, eq_comm]
    · simp [hk]
  activeCaptures := hs.activeCaptures.keep x fun _ _ => Iff.rfl
  frameCallbacks := hs.frameCallbacks.keep x fun _ _ => Iff.rfl
  discoveryCallbacks := hs.discoveryCallbacks.keep x fun _ _ => Iff.rfl
  discoveryRegs := hs.discoveryRegs.keep x fun _ _ => Iff.rfl

/-- The entry of the capture grows, or is made. -/
theorem captured (hs : Tables E s L) {h : CameraHandle} (hh : (L x).handle = some h)
    {slots : List (FrameSlotId × FrameCallbackId)} {unqueued : List FrameSlotId}
    {w : List (FrameSlotId × FrameCallbackId)} (hw : ((L x).window.getD []) ++ slots = w) :
    Tables E (s.pushCapture h slots)
      (Function.update L x { L x with unqueued := unqueued, window := some w }) where
  cameras := hs.cameras.keep x fun _ _ => Iff.rfl
  announcedFrames := hs.announcedFrames.keep x fun _ _ => Iff.rfl
  activeCaptures := by
    show Tracks (fun _ => True) (fun k => (s.activeCaptures.insert h _).lookup k) _ _
    -- the entry is there exactly while the window is open
    have hlookup : s.activeCaptures.lookup h = (L x).window := by
      rcases hwindow : (L x).window with - | w'
      · exact hs.noCapture hh hwindow
      · exact hs.activeCaptures.covers x h w' ⟨hh, hwindow⟩
    rw [lookup_insert_eq_update, hlookup, hw]
    refine hs.activeCaptures.set x ?_ fun k w' => ?_
    · rcases hwindow : (L x).window with - | w'
      · exact Or.inr (hs.noCapture hh hwindow)
      · exact Or.inl ⟨w', hh, hwindow⟩
    · show (L x).handle = some k ∧ some w = some w' ↔ _
      rw [ownsCapture, hh]
      by_cases hk : k = h
      · simp [hk, eq_comm]
      · simp [hk, Ne.symm hk]
  frameCallbacks := hs.frameCallbacks.keep x fun _ _ => Iff.rfl
  discoveryCallbacks := hs.discoveryCallbacks.keep x fun _ _ => Iff.rfl
  discoveryRegs := hs.discoveryRegs.keep x fun _ _ => Iff.rfl

theorem captureEnded (hs : Tables E s L) {h : CameraHandle} (hh : (L x).handle = some h) :
    Tables E { s with activeCaptures := s.activeCaptures.erase h }
      (Function.update L x { L x with window := none, unqueued := [] }) where
  cameras := hs.cameras.keep x fun _ _ => Iff.rfl
  announcedFrames := hs.announcedFrames.keep x fun _ _ => Iff.rfl
  activeCaptures := by
    refine hs.activeCaptures.lookup_erase x ?_ fun k w => ?_
    · rcases hwindow : (L x).window with - | w
      · exact Or.inr (hs.noCapture hh hwindow)
      · exact Or.inl ⟨w, hh, hwindow⟩
    · simp only [ownsCapture, reduceCtorEq, and_false, hh, Option.some.injEq, false_iff, not_and]
      intro hne heq
      exact absurd heq.symm hne
  frameCallbacks := hs.frameCallbacks.keep x fun _ _ => Iff.rfl
  discoveryCallbacks := hs.discoveryCallbacks.keep x fun _ _ => Iff.rfl
  discoveryRegs := hs.discoveryRegs.keep x fun _ _ => Iff.rfl

/-- The slots of one camera are revoked, and those of no other. -/
theorem revoked (hs : Tables E s L) {h : CameraHandle} (hh : (L x).handle = some h) :
    Tables E { s with announcedFrames := retain (fun owner => owner ≠ h) s.announcedFrames }
      (Function.update L x { L x with slots := [], unqueued := [] }) where
  cameras := hs.cameras.keep x fun _ _ => Iff.rfl
  announcedFrames := by
    refine hs.announcedFrames.clear x (fun slot owner hown => ?_) fun slot owner => ?_
    · exact absurd hown.1 List.not_mem_nil
    · show (retain (fun owner => owner ≠ h) s.announcedFrames).lookup slot = some owner ↔ _
      rw [lookup_retain_eq_some]
      refine and_congr_right fun hslot => ⟨fun hne owner' hown => ?_, fun hnot heq => ?_⟩
      · have hsame := hs.announcedFrames.covers x slot owner' hown
        have heq : owner' = h := Option.some.inj (hown.2.symm.trans hh)
        rw [hslot, Option.some.injEq] at hsame
        exact hne (hsame.trans heq)
      · obtain ⟨y, hy⟩ := hs.announcedFrames.owned slot owner trivial hslot
        have hyx : x = y := hs.eq_of_handle hh (heq ▸ hy.2)
        subst hyx
        exact hnot owner hy
  activeCaptures := hs.activeCaptures.keep x fun _ _ => Iff.rfl
  frameCallbacks := hs.frameCallbacks.keep x fun _ _ => Iff.rfl
  discoveryCallbacks := hs.discoveryCallbacks.keep x fun _ _ => Iff.rfl
  discoveryRegs := hs.discoveryRegs.keep x fun _ _ => Iff.rfl

theorem registered (hs : Tables E s L) {cb : DiscoveryCallbackId}
    (hcb : (L x).discoveryCallbackId = some cb) (hr : (L x).registration = none)
    {r : DiscoveryRegistrationHandle} (hfresh : s.discoveryRegs.lookup r = none) :
    Tables E { s with counter := s.counter + 1, discoveryRegs := s.discoveryRegs.insert r cb }
      (Function.update L x { L x with registration := some r }) where
  cameras := hs.cameras.keep x fun _ _ => Iff.rfl
  announcedFrames := hs.announcedFrames.keep x fun _ _ => Iff.rfl
  activeCaptures := hs.activeCaptures.keep x fun _ _ => Iff.rfl
  frameCallbacks := hs.frameCallbacks.keep x fun _ _ => Iff.rfl
  discoveryCallbacks := hs.discoveryCallbacks.keep x fun _ _ => Iff.rfl
  discoveryRegs := by
    refine hs.discoveryRegs.lookup_insert x (Or.inr hfresh) fun k cb' => ?_
    show some r = some k ∧ (L x).discoveryCallbackId = some cb' ↔ _
    rw [ownsRegistration, hcb, hr]
    simp [eq_comm]

theorem unregistered (hs : Tables E s L) {r : DiscoveryRegistrationHandle}
    (hr : (L x).registration = some r) (hcb : (L x).discoveryCallbackId.isSome) :
    Tables E { s with discoveryRegs := s.discoveryRegs.erase r }
      (Function.update L x { L x with registration := none }) where
  cameras := hs.cameras.keep x fun _ _ => Iff.rfl
  announcedFrames := hs.announcedFrames.keep x fun _ _ => Iff.rfl
  activeCaptures := hs.activeCaptures.keep x fun _ _ => Iff.rfl
  frameCallbacks := hs.frameCallbacks.keep x fun _ _ => Iff.rfl
  discoveryCallbacks := hs.discoveryCallbacks.keep x fun _ _ => Iff.rfl
  discoveryRegs := by
    obtain ⟨cb, hcb⟩ := Option.isSome_iff_exists.mp hcb
    refine hs.discoveryRegs.lookup_erase x (Or.inl ⟨cb, hr, hcb⟩) fun k cb' => ?_
    simp only [ownsRegistration, reduceCtorEq, false_and, hr, Option.some.injEq, false_iff, not_and]
    intro hne heq
    exact absurd heq.symm hne

theorem installedFrame (hs : Tables E s L) (hcb : (L x).callback = none) (f : FrameCallback)
    {cb : FrameCallbackId} (hfresh : s.frameCallbacks.lookup cb = none) :
    Tables E { s with counter := s.counter + 1, frameCallbacks := s.frameCallbacks.insert cb f }
      (Function.update L x { L x with callback := some (cb, f) }) where
  cameras := hs.cameras.keep x fun _ _ => Iff.rfl
  announcedFrames := hs.announcedFrames.keep x fun _ _ => Iff.rfl
  activeCaptures := hs.activeCaptures.keep x fun _ _ => Iff.rfl
  frameCallbacks := tracks_installFrame hs.frameCallbacks hcb hfresh f
  discoveryCallbacks := hs.discoveryCallbacks.keep x fun _ _ => Iff.rfl
  discoveryRegs := hs.discoveryRegs.keep x fun _ _ => Iff.rfl

theorem uninstalledFrame (hs : Tables E s L) {cb : FrameCallbackId}
    (hcb : (L x).callbackId = some cb) :
    Tables E { s with frameCallbacks := s.frameCallbacks.erase cb }
      (Function.update L x { L x with callback := none }) where
  cameras := hs.cameras.keep x fun _ _ => Iff.rfl
  announcedFrames := hs.announcedFrames.keep x fun _ _ => Iff.rfl
  activeCaptures := hs.activeCaptures.keep x fun _ _ => Iff.rfl
  frameCallbacks := tracks_uninstallFrame hs.frameCallbacks hcb
  discoveryCallbacks := hs.discoveryCallbacks.keep x fun _ _ => Iff.rfl
  discoveryRegs := hs.discoveryRegs.keep x fun _ _ => Iff.rfl

theorem installedDiscovery (hs : Tables E s L) (hx : L x = {}) (f : DiscoveryCallback)
    {cb : DiscoveryCallbackId} (hfresh : s.discoveryCallbacks.lookup cb = none) :
    Tables E { s with
        counter := s.counter + 1, discoveryCallbacks := s.discoveryCallbacks.insert cb f }
      (Function.update L x { L x with discoveryCallback := some (cb, f) }) where
  cameras := hs.cameras.keep x fun _ _ => Iff.rfl
  announcedFrames := hs.announcedFrames.keep x fun _ _ => Iff.rfl
  activeCaptures := hs.activeCaptures.keep x fun _ _ => Iff.rfl
  frameCallbacks := hs.frameCallbacks.keep x fun _ _ => Iff.rfl
  discoveryCallbacks := tracks_installDiscovery hs.discoveryCallbacks (by rw [hx]) hfresh f
  discoveryRegs := hs.discoveryRegs.keep x fun r cb => by simp [ownsRegistration, hx]

theorem uninstalledDiscovery (hs : Tables E s L) {cb : DiscoveryCallbackId}
    (hcb : (L x).discoveryCallbackId = some cb) (hr : (L x).registration = none) :
    Tables E { s with discoveryCallbacks := s.discoveryCallbacks.erase cb }
      (Function.update L x { L x with discoveryCallback := none }) where
  cameras := hs.cameras.keep x fun _ _ => Iff.rfl
  announcedFrames := hs.announcedFrames.keep x fun _ _ => Iff.rfl
  activeCaptures := hs.activeCaptures.keep x fun _ _ => Iff.rfl
  frameCallbacks := hs.frameCallbacks.keep x fun _ _ => Iff.rfl
  discoveryCallbacks := tracks_uninstallDiscovery hs.discoveryCallbacks hcb
  discoveryRegs := hs.discoveryRegs.keep x fun r cb => by simp [ownsRegistration, hr]

/-- If the callback may be abandoned, abandoning it goes unnoticed. -/
theorem abandon (hs : Tables E s L) (hE : ∀ cb f, (L x).callback = some (cb, f) → ¬ E cb) :
    Tables E s (Function.update L x { L x with callback := none }) where
  cameras := hs.cameras.keep x fun _ _ => Iff.rfl
  announcedFrames := hs.announcedFrames.keep x fun _ _ => Iff.rfl
  activeCaptures := hs.activeCaptures.keep x fun _ _ => Iff.rfl
  frameCallbacks := tracks_abandonFrame hs.frameCallbacks hE
  discoveryCallbacks := hs.discoveryCallbacks.keep x fun _ _ => Iff.rfl
  discoveryRegs := hs.discoveryRegs.keep x fun _ _ => Iff.rfl

/-- A call that fails, or that succeeds and changes no table, changes neither side. -/
theorem quiet (hs : Tables E s L) (hc : mayCall (L x) c) (hr : (∃ e, Fails e c r) ∨ Succeeds s c r) :
    Tables E s (Function.update L x (afterCall (L x) c r)) := by
  have hview : Keeps (L x) (afterCall (L x) c r) ∧
      (afterCall (L x) c r).window = (L x).window := by
    rcases hr with ⟨e, hr⟩ | hr
    · cases c with
      | startup => exact absurd hc id
      | listCameras => exact absurd hc id
      | runFeatureCommand h name =>
          obtain rfl := hr
          refine ⟨keeps_afterCall rfl rfl, ?_⟩
          rw [afterCall_fields]
          rfl
      | openCamera id => exact hr ▸ ⟨keeps_afterCall rfl rfl, rfl⟩
      | loadSettings h path => exact ⟨keeps_afterCall rfl rfl, rfl⟩
      | payloadSize h => exact ⟨keeps_afterCall rfl rfl, rfl⟩
      | announceFrame h size => exact hr ▸ ⟨keeps_afterCall rfl rfl, rfl⟩
      | captureStart h => exact hr ▸ ⟨keeps_afterCall rfl rfl, rfl⟩
      | queueFrame h slot cb => exact hr ▸ ⟨keeps_afterCall rfl rfl, rfl⟩
      | registerDiscovery cb => exact hr ▸ ⟨keeps_afterCall rfl rfl, rfl⟩
      | _ => exact absurd hr id
    · cases c with
      | listCameras => exact absurd hc id
      | runFeatureCommand h name =>
          obtain rfl := hr
          refine ⟨keeps_afterCall rfl rfl, ?_⟩
          rw [afterCall_fields]
          rfl
      | loadSettings h path => exact ⟨keeps_afterCall rfl rfl, rfl⟩
      | payloadSize h => exact ⟨keeps_afterCall rfl rfl, rfl⟩
      | captureQueueFlush h => exact ⟨keeps_afterCall rfl rfl, rfl⟩
      | _ => exact absurd hr id
  exact hs.keep hview.1 hview.2

/-- **A call of an owner keeps the tables.** -/
theorem step (hs : Tables E s L) (hcount : Counted s) (hv : Subscribed (L x)) (hc : mayCall (L x) c)
    (h : Effect s c r s') (hids : s'.counter ≤ 2 ^ 64) :
    Tables E s' (Function.update L x (afterCall (L x) c r)) := by
  cases h with
  | failed c e r hr he => exact hs.quiet hc (Or.inl ⟨e, hr⟩)
  | quiet c r hr => exact hs.quiet hc (Or.inr hr)
  | startRefused hs => exact absurd hc id
  | started hs => exact absurd hc id
  | stopped => exact absurd hc id
  | opened id hid =>
      have hview : afterCall (L x) (.openCamera id) (.returned (.ok ⟨s.currentId, hid⟩)) =
          { camera := some (⟨s.currentId, hid⟩, id) } := by
        rw [show L x = {} from hc]
        rfl
      rw [hview]
      exact hs.opened hc id (hcount.cameras.fresh hids rfl)
  | openPanicked id m hid =>
      have hsame : Keeps (L x) (L x) := ⟨rfl, rfl, rfl, rfl, rfl, fun _ h => h⟩
      exact { hs.keep hsame rfl with }
  | closed h => exact hs.closed hc.1 hc.2.2.1 hc.2.2.2.1
  | announced h size => exact hs.announced hc.1 (hcount.announcedFrames.fresh hids rfl)
  | captureStarted h =>
      refine hs.captured hc.1 ?_
      rw [hc.2.2.1]
      rfl
  | queued h slot cb =>
      obtain ⟨w, hw⟩ := Option.isSome_iff_exists.mp hc.2.2.1
      have hview : afterCall (L x) (.queueFrame h slot cb) (.ok ()) =
          { L x with unqueued := (L x).unqueued.tail, window := some (w ++ [(slot, cb)]) } := by
        simp [afterCall, hw]
      rw [hview]
      refine hs.captured hc.1 ?_
      rw [hw]
      rfl
  | captureEnded h => exact hs.captureEnded hc.1
  | revoked h => exact hs.revoked hc.1
  | registered cb => exact hs.registered hc.1 hc.2 (hcount.discoveryRegs.fresh hids rfl)
  | unregistered r => exact hs.unregistered hc (hv (by rw [show (L x).registration = _ from hc]; rfl))
  | installedFrame f => exact hs.installedFrame hc.2 f (hcount.frameCallbacks.fresh hids rfl)
  | uninstalledFrame id => exact hs.uninstalledFrame hc.1
  | installedDiscovery f => exact hs.installedDiscovery hc f (hcount.discoveryCallbacks.fresh hids rfl)
  | uninstalledDiscovery id => exact hs.uninstalledDiscovery hc.1 hc.2

end Tables

end Vmb.Fake

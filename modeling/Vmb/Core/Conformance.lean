/-
# Vmb.Core.Conformance -- the traces of cameras and registrations conform to the port protocol

`Allowed` states the call ordering rules of the port as past-time properties of the trace before each
call: what must have happened on the same identifiers, and what must not have been left open. The
owners' views carry the same information in their fields, and `Mirrors` says so; a call the ownership
protocol allows is then allowed by the trace. `conforms_allowed` is the result for whole runs, on any
runtime that issues no identifier twice, whatever it answers.

A `start_capture` whose slot vector cannot be allocated panics after it has installed its callback,
and nothing uninstalls it; the count of uninstalls is exact for the runs without such a start.
-/
import Vmb.Core.Alive
import Vmb.Core.Trace

namespace Vmb.Core

open Vmb.Lib

/-! ## Events -/

def startsCapture (h : CameraHandle) : Event Port → Bool
  | ⟨.captureStart h', .ok ()⟩ => h' = h
  | _ => false

def endsCapture (h : CameraHandle) : Event Port → Bool
  | ⟨.captureEnd h', _⟩ => h' = h
  | _ => false

def startsAcquisition (h : CameraHandle) : Event Port → Bool
  | ⟨.runFeatureCommand h' name, .ok ()⟩ => h' = h ∧ name = featureAcquisitionStart
  | _ => false

def stopsAcquisition (h : CameraHandle) : Event Port → Bool
  | ⟨.runFeatureCommand h' name, _⟩ => h' = h ∧ name = featureAcquisitionStop
  | _ => false

def announces (h : CameraHandle) (slot : FrameSlotId) : Event Port → Bool
  | ⟨.announceFrame h' _, .ok slot'⟩ => h' = h ∧ slot' = slot
  | _ => false

def revokes (h : CameraHandle) : Event Port → Bool
  | ⟨.frameRevokeAll h', _⟩ => h' = h
  | _ => false

/-- The slot is queued on the camera, under some callback. -/
def queues (h : CameraHandle) (slot : FrameSlotId) : Event Port → Bool
  | ⟨.queueFrame h' slot' _, _⟩ => h' = h ∧ slot' = slot
  | _ => false

/-- A slot of the camera is queued under the callback. -/
def queuesUnder (h : CameraHandle) (cb : FrameCallbackId) : Event Port → Bool
  | ⟨.queueFrame h' _ cb', _⟩ => h' = h ∧ cb' = cb
  | _ => false

def installs (cb : FrameCallbackId) : Event Port → Bool
  | ⟨.installFrameCallback _, cb'⟩ => cb' = cb
  | _ => false

def uninstalls (cb : FrameCallbackId) : Event Port → Bool
  | ⟨.uninstallFrameCallback cb', _⟩ => cb' = cb
  | _ => false

def installsDiscovery (cb : DiscoveryCallbackId) : Event Port → Bool
  | ⟨.installDiscoveryCallback _, cb'⟩ => cb' = cb
  | _ => false

def uninstallsDiscovery (cb : DiscoveryCallbackId) : Event Port → Bool
  | ⟨.uninstallDiscoveryCallback cb', _⟩ => cb' = cb
  | _ => false

def registers (r : DiscoveryRegistrationHandle) : Event Port → Bool
  | ⟨.registerDiscovery _, .ok r'⟩ => r' = r
  | _ => false

/-- The callback is registered under the handle. -/
def registersUnder (cb : DiscoveryCallbackId) (r : DiscoveryRegistrationHandle) : Event Port → Bool
  | ⟨.registerDiscovery cb', .ok r'⟩ => cb' = cb ∧ r' = r
  | _ => false

def unregisters (r : DiscoveryRegistrationHandle) : Event Port → Bool
  | ⟨.unregisterDiscovery r', _⟩ => r' = r
  | _ => false

/-! ## The rules -/

section Rules

variable (log : List (Event Port))

/-- A capture of the camera is open. -/
def CaptureOpen (h : CameraHandle) : Prop := Since (startsCapture h ·) (endsCapture h ·) log

/-- An acquisition of the camera has not been closed by `capture_end`. -/
def AcquisitionOpen (h : CameraHandle) : Prop := Since (startsAcquisition h ·) (endsCapture h ·) log

/-- An acquisition of the camera has not been stopped. -/
def Acquiring (h : CameraHandle) : Prop := Since (startsAcquisition h ·) (stopsAcquisition h ·) log

/-- The slot is announced on the camera and not revoked. -/
def Announced (h : CameraHandle) (slot : FrameSlotId) : Prop :=
  Since (announces h slot ·) (revokes h ·) log

/-- The slot is announced on the camera, and neither queued nor revoked. -/
def Queueable (h : CameraHandle) (slot : FrameSlotId) : Prop :=
  Since (announces h slot ·) (fun e => queues h slot e || revokes h e) log

def Installed (cb : FrameCallbackId) : Prop := Since (installs cb ·) (uninstalls cb ·) log

/-- A frame queued under the callback has not been revoked, or its capture has not been ended. -/
def InUse (cb : FrameCallbackId) : Prop :=
  ∃ h, Since (queuesUnder h cb ·) (revokes h ·) log ∨ Since (queuesUnder h cb ·) (endsCapture h ·) log

def DiscoveryInstalled (cb : DiscoveryCallbackId) : Prop :=
  Since (installsDiscovery cb ·) (uninstallsDiscovery cb ·) log

def Registered (r : DiscoveryRegistrationHandle) : Prop :=
  Since (registers r ·) (unregisters r ·) log

/-- A registration of the callback is active. -/
def DiscoveryInUse (cb : DiscoveryCallbackId) : Prop :=
  ∃ r, Since (registersUnder cb r ·) (unregisters r ·) log

end Rules

/-- What must hold of the trace before a call. -/
def AllowedCall (pre : List (Event Port)) : PortCall → Prop
  | .captureStart h => ¬ CaptureOpen pre h ∧ ¬ AcquisitionOpen pre h
  | .queueFrame h slot cb => CaptureOpen pre h ∧ Queueable pre h slot ∧ Installed pre cb
  | .captureEnd h => ¬ Acquiring pre h
  | .closeCamera h => ¬ CaptureOpen pre h ∧ ¬ AcquisitionOpen pre h ∧ ∀ slot, ¬ Announced pre h slot
  | .uninstallFrameCallback cb => Installed pre cb ∧ ¬ InUse pre cb
  | .registerDiscovery cb => DiscoveryInstalled pre cb
  | .unregisterDiscovery r => Registered pre r
  | .uninstallDiscoveryCallback cb => DiscoveryInstalled pre cb ∧ ¬ DiscoveryInUse pre cb
  | _ => True

def Allowed (pre : List (Event Port)) (e : Event Port) : Prop := AllowedCall pre e.call

/-- The identifiers issued in a trace. -/
def issuedIn (log : List (Event Port)) : List Ident := log.filterMap issued

/-- No identifier is issued twice. -/
def NoReissue (log : List (Event Port)) : Prop := (issuedIn log).Nodup

instance (log : List (Event Port)) : Decidable (NoReissue log) :=
  inferInstanceAs (Decidable (List.Nodup _))

/-! ## Views mirror the trace -/

/-- The view of an owner says of its identifiers what the trace says. -/
structure Mirrors (log : List (Event Port)) (v : Holdings) : Prop where
  capture : ∀ h, v.handle = some h → (CaptureOpen log h ↔ v.window.isSome)
  acquisitionOpen : ∀ h, v.handle = some h → AcquisitionOpen log h → v.window.isSome
  acquiring : ∀ h, v.handle = some h → Acquiring log h → v.acquiring = true
  announced : ∀ h slot, v.handle = some h → Announced log h slot → slot ∈ v.slots
  queueable : ∀ h slot, v.handle = some h → slot ∈ v.unqueued → Queueable log h slot
  nodup : v.unqueued.Nodup
  subset : ∀ slot ∈ v.unqueued, slot ∈ v.slots
  callback : ∀ cb, v.callbackId = some cb → Installed log cb
  revoked : ∀ cb h, v.callbackId = some cb → Since (queuesUnder h cb ·) (revokes h ·) log →
    v.handle = some h ∧ v.slots ≠ []
  ended : ∀ cb h, v.callbackId = some cb → Since (queuesUnder h cb ·) (endsCapture h ·) log →
    v.handle = some h ∧ v.window.isSome
  discoveryCallback : ∀ cb, v.discoveryCallbackId = some cb → DiscoveryInstalled log cb
  registration : ∀ r, v.registration = some r → Registered log r
  discoveryInUse : ∀ cb r, v.discoveryCallbackId = some cb →
    Since (registersUnder cb r ·) (unregisters r ·) log → v.registration = some r

/-- **A call of an owner is allowed by the trace.** -/
theorem mayCall.allowed {log : List (Event Port)} {v : Holdings} {c : PortCall} (h : mayCall v c)
    (hv : Mirrors log v) : AllowedCall log c := by
  cases c with
  | captureStart h' =>
      obtain ⟨hh, -, hw, -⟩ := h
      refine ⟨fun hopen => ?_, fun hopen => ?_⟩
      · simpa [hw] using (hv.capture h' hh).mp hopen
      · simpa [hw] using hv.acquisitionOpen h' hh hopen
  | queueFrame h' slot cb =>
      obtain ⟨hh, hcb, hw, hslot⟩ := h
      exact ⟨(hv.capture h' hh).mpr hw, hv.queueable h' slot hh (List.mem_of_mem_head? hslot),
        hv.callback cb hcb⟩
  | captureEnd h' =>
      intro hacq
      have := hv.acquiring h' h.1 hacq
      rw [h.2] at this
      cases this
  | closeCamera h' =>
      obtain ⟨hh, -, hslots, hw, -⟩ := h
      refine ⟨fun hopen => ?_, fun hopen => ?_, fun slot hslot => ?_⟩
      · simpa [hw] using (hv.capture h' hh).mp hopen
      · simpa [hw] using hv.acquisitionOpen h' hh hopen
      · simpa [hslots] using hv.announced h' slot hh hslot
  | uninstallFrameCallback cb =>
      obtain ⟨hcb, hslots, hw⟩ := h
      refine ⟨hv.callback cb hcb, ?_⟩
      rintro ⟨h', huse | huse⟩
      · exact (hv.revoked cb h' hcb huse).2 hslots
      · simpa [hw] using (hv.ended cb h' hcb huse).2
  | registerDiscovery cb => exact hv.discoveryCallback cb h.1
  | unregisterDiscovery r => exact hv.registration r h
  | uninstallDiscoveryCallback cb =>
      refine ⟨hv.discoveryCallback cb h.1, ?_⟩
      rintro ⟨r, huse⟩
      have := hv.discoveryInUse cb r h.1 huse
      rw [h.2] at this
      cases this
  | _ => trivial

/-! ## Events of others -/

/-- The event names the identifier, or issues it. -/
def Touches (e : Event Port) (id : Ident) : Prop := id ∈ e.call.names ∨ issued e = some id

section Touches

variable {e : Event Port}

theorem startsCapture_touches {h : CameraHandle} (he : startsCapture h e = true) :
    Touches e (.camera h) := by
  unfold startsCapture at he
  split at he
  · simp [Touches, PortCall.names, of_decide_eq_true he]
  · cases he

theorem endsCapture_touches {h : CameraHandle} (he : endsCapture h e = true) :
    Touches e (.camera h) := by
  unfold endsCapture at he
  split at he
  · simp [Touches, PortCall.names, of_decide_eq_true he]
  · cases he

theorem startsAcquisition_touches {h : CameraHandle} (he : startsAcquisition h e = true) :
    Touches e (.camera h) := by
  unfold startsAcquisition at he
  split at he
  · simp [Touches, PortCall.names, of_decide_eq_true he]
  · cases he

theorem announces_touches {h : CameraHandle} {slot : FrameSlotId}
    (he : announces h slot e = true) : Touches e (.camera h) := by
  unfold announces at he
  split at he
  · simp [Touches, PortCall.names, of_decide_eq_true he]
  · cases he

theorem revokes_touches {h : CameraHandle} (he : revokes h e = true) : Touches e (.camera h) := by
  unfold revokes at he
  split at he
  · simp [Touches, PortCall.names, of_decide_eq_true he]
  · cases he

theorem queues_touches {h : CameraHandle} {slot : FrameSlotId} (he : queues h slot e = true) :
    Touches e (.camera h) := by
  unfold queues at he
  split at he
  · simp [Touches, PortCall.names, of_decide_eq_true he]
  · cases he

theorem queuesUnder_touches {h : CameraHandle} {cb : FrameCallbackId}
    (he : queuesUnder h cb e = true) : Touches e (.frameCallback cb) := by
  unfold queuesUnder at he
  split at he
  · simp [Touches, PortCall.names, of_decide_eq_true he]
  · cases he

theorem uninstalls_touches {cb : FrameCallbackId} (he : uninstalls cb e = true) :
    Touches e (.frameCallback cb) := by
  unfold uninstalls at he
  split at he
  · simp [Touches, PortCall.names, of_decide_eq_true he]
  · cases he

theorem uninstallsDiscovery_touches {cb : DiscoveryCallbackId}
    (he : uninstallsDiscovery cb e = true) : Touches e (.discoveryCallback cb) := by
  unfold uninstallsDiscovery at he
  split at he
  · simp [Touches, PortCall.names, of_decide_eq_true he]
  · cases he

theorem registersUnder_touches {cb : DiscoveryCallbackId} {r : DiscoveryRegistrationHandle}
    (he : registersUnder cb r e = true) : Touches e (.discoveryCallback cb) := by
  unfold registersUnder at he
  split at he
  · simp [Touches, PortCall.names, of_decide_eq_true he]
  · cases he

theorem unregisters_touches {r : DiscoveryRegistrationHandle} (he : unregisters r e = true) :
    Touches e (.registration r) := by
  unfold unregisters at he
  split at he
  · simp [Touches, PortCall.names, of_decide_eq_true he]
  · cases he

end Touches

/-- Events that touch nothing of an owner leave its view a mirror of the trace. -/
theorem Mirrors.frame {log : List (Event Port)} {v : Holdings} {e : Event Port} (hv : Mirrors log v)
    (he : ∀ id, v.owns id → ¬ Touches e id) : Mirrors (log ++ [e]) v where
  capture h hh := by
    have hnot := he (.camera h) hh
    rw [CaptureOpen, since_append, ← hv.capture h hh, or_iff_right (hnot ∘ startsCapture_touches)]
    exact and_iff_left (hnot ∘ endsCapture_touches)
  acquisitionOpen h hh hopen := by
    rcases since_append.mp hopen with hs | ⟨hopen, -⟩
    · exact absurd (startsAcquisition_touches hs) (he (.camera h) hh)
    · exact hv.acquisitionOpen h hh hopen
  acquiring h hh hopen := by
    rcases since_append.mp hopen with hs | ⟨hopen, -⟩
    · exact absurd (startsAcquisition_touches hs) (he (.camera h) hh)
    · exact hv.acquiring h hh hopen
  announced h slot hh hann := by
    rcases since_append.mp hann with hs | ⟨hann, -⟩
    · exact absurd (announces_touches hs) (he (.camera h) hh)
    · exact hv.announced h slot hh hann
  queueable h slot hh hslot := by
    refine since_append.mpr (Or.inr ⟨hv.queueable h slot hh hslot, fun hq => ?_⟩)
    rcases Bool.or_eq_true _ _ ▸ hq with hq | hq
    · exact he (.camera h) hh (queues_touches hq)
    · exact he (.camera h) hh (revokes_touches hq)
  nodup := hv.nodup
  subset := hv.subset
  callback cb hcb := since_append.mpr
    (Or.inr ⟨hv.callback cb hcb, fun hq => he (.frameCallback cb) hcb (uninstalls_touches hq)⟩)
  revoked cb h hcb hopen := by
    rcases since_append.mp hopen with hs | ⟨hopen, -⟩
    · exact absurd (queuesUnder_touches hs) (he (.frameCallback cb) hcb)
    · exact hv.revoked cb h hcb hopen
  ended cb h hcb hopen := by
    rcases since_append.mp hopen with hs | ⟨hopen, -⟩
    · exact absurd (queuesUnder_touches hs) (he (.frameCallback cb) hcb)
    · exact hv.ended cb h hcb hopen
  discoveryCallback cb hcb := since_append.mpr
    (Or.inr ⟨hv.discoveryCallback cb hcb,
      fun hq => he (.discoveryCallback cb) hcb (uninstallsDiscovery_touches hq)⟩)
  registration r hr := since_append.mpr
    (Or.inr ⟨hv.registration r hr, fun hq => he (.registration r) hr (unregisters_touches hq)⟩)
  discoveryInUse cb r hcb hopen := by
    rcases since_append.mp hopen with hs | ⟨hopen, -⟩
    · exact absurd (registersUnder_touches hs) (he (.discoveryCallback cb) hcb)
    · exact hv.discoveryInUse cb r hcb hopen

/-! ## What a call does to a view -/

section Views

variable {v : Holdings} {c : PortCall} {r : c.Resp}

open Holdings

/-- Capture windows open with `capture_start` and close with `capture_end`. -/
theorem window_afterCall (hc : mayCall v c) {h : CameraHandle} (hh : v.handle = some h) :
    (afterCall v c r).window.isSome ↔
      startsCapture h ⟨c, r⟩ = true ∨ (v.window.isSome ∧ ¬ endsCapture h ⟨c, r⟩ = true) := by
  rw [afterCall_fields]
  cases c with
  | captureStart h' =>
      obtain rfl : h' = h := Option.some.inj (hc.1.symm.trans hh)
      rcases r with e | ⟨⟨⟩⟩ <;> simp [windowAfter, startsCapture, endsCapture]
  | queueFrame h' slot cb =>
      rcases r with e | ⟨⟨⟩⟩ <;> simp [windowAfter, startsCapture, endsCapture]
  | captureEnd h' =>
      obtain rfl : h' = h := Option.some.inj (hc.1.symm.trans hh)
      simp [windowAfter, startsCapture, endsCapture]
  | _ => simp [windowAfter, startsCapture, endsCapture]

theorem startsAcquisition_spec (hc : mayCall v c) {h : CameraHandle}
    (he : startsAcquisition h ⟨c, r⟩ = true) :
    (afterCall v c r).window.isSome ∧ (afterCall v c r).acquiring = true := by
  cases c with
  | runFeatureCommand h' name =>
      rcases r with e | ⟨⟨⟩⟩
      · cases he
      · obtain ⟨-, rfl⟩ := of_decide_eq_true he
        have hw : v.window.isSome := by
          rcases hc.2 with ⟨-, hw, -⟩ | hname
          · exact hw
          · exact absurd hname (by decide)
        exact ⟨hw, rfl⟩
  | _ => cases he

theorem acquiring_persists (hc : mayCall v c) {h : CameraHandle} (hh : v.handle = some h)
    (hacq : v.acquiring = true) (he : ¬ stopsAcquisition h ⟨c, r⟩ = true) :
    (afterCall v c r).acquiring = true := by
  rw [afterCall_fields]
  cases c with
  | runFeatureCommand h' name =>
      -- a failed start of an acquisition does not end the one that runs
      obtain rfl : h' = h := Option.some.inj (hc.1.symm.trans hh)
      have hname : name ≠ featureAcquisitionStop := by
        rintro rfl
        exact he (decide_eq_true ⟨rfl, rfl⟩)
      rcases r with e | ⟨⟨⟩⟩ <;> simp only [acquiringAfter, if_neg hname]
      exact hacq
  | _ => exact hacq

theorem announces_spec {h : CameraHandle} {slot : FrameSlotId}
    (he : announces h slot ⟨c, r⟩ = true) :
    slot ∈ (afterCall v c r).slots ∧ issued ⟨c, r⟩ = some (.slot slot) := by
  cases c with
  | announceFrame h' size =>
      rcases r with e | slot'
      · cases he
      · obtain ⟨-, rfl⟩ := of_decide_eq_true he
        exact ⟨List.mem_append_right _ (List.mem_singleton_self _), rfl⟩
  | _ => cases he

theorem slots_persist (hc : mayCall v c) {h : CameraHandle} (hh : v.handle = some h)
    {slot : FrameSlotId} (hslot : slot ∈ v.slots) (he : ¬ revokes h ⟨c, r⟩ = true) :
    slot ∈ (afterCall v c r).slots := by
  rw [afterCall_fields]
  cases c with
  | announceFrame h' size =>
      rcases r with e | slot'
      · exact hslot
      · exact List.mem_append_left _ hslot
  | frameRevokeAll h' =>
      obtain rfl : h' = h := Option.some.inj (hc.1.symm.trans hh)
      exact absurd (decide_eq_true rfl) he
  | _ => exact hslot

/-- The slots still to be queued: a queued one is the first of them, and goes. -/
theorem unqueued_afterCall (hc : mayCall v c) (hnodup : v.unqueued.Nodup) {h : CameraHandle}
    (hh : v.handle = some h) {slot : FrameSlotId} (hslot : slot ∈ (afterCall v c r).unqueued) :
    announces h slot ⟨c, r⟩ = true ∨
      (slot ∈ v.unqueued ∧ ¬ queues h slot ⟨c, r⟩ = true ∧ ¬ revokes h ⟨c, r⟩ = true) := by
  rw [afterCall_fields] at hslot
  cases c with
  | announceFrame h' size =>
      obtain rfl : h' = h := Option.some.inj (hc.1.symm.trans hh)
      rcases r with e | slot'
      · exact absurd hslot List.not_mem_nil
      · rcases List.mem_append.mp hslot with hslot | hslot
        · exact Or.inr ⟨hslot, by simp [queues], by simp [revokes]⟩
        · exact Or.inl (decide_eq_true ⟨rfl, (List.mem_singleton.mp hslot).symm⟩)
  | captureStart h' =>
      rcases r with e | ⟨⟨⟩⟩
      · exact absurd hslot List.not_mem_nil
      · exact Or.inr ⟨hslot, by simp [queues], by simp [revokes]⟩
  | queueFrame h' slot' cb =>
      rcases r with e | ⟨⟨⟩⟩
      · exact absurd hslot List.not_mem_nil
      · -- `slot'` was the first, and no slot is to be queued twice.
        refine Or.inr ⟨List.mem_of_mem_tail hslot, fun hq => ?_, by simp [revokes]⟩
        obtain ⟨-, rfl⟩ := of_decide_eq_true hq
        obtain ⟨rest, hrest⟩ := List.head?_eq_some_iff.mp hc.2.2.2
        have htail : slot' ∈ rest := by
          have : slot' ∈ v.unqueued.tail := hslot
          rwa [hrest] at this
        rw [hrest] at hnodup
        exact (List.nodup_cons.mp hnodup).1 htail
  | captureEnd h' => exact absurd hslot List.not_mem_nil
  | frameRevokeAll h' => exact absurd hslot List.not_mem_nil
  | _ => exact Or.inr ⟨hslot, by simp [queues], by simp [revokes]⟩

theorem nodup_afterCall (hnodup : v.unqueued.Nodup)
    (hnew : ∀ slot, issued ⟨c, r⟩ = some (.slot slot) → slot ∉ v.unqueued) :
    (afterCall v c r).unqueued.Nodup := by
  rw [afterCall_fields]
  cases c with
  | announceFrame h' size =>
      rcases r with e | slot
      · exact List.nodup_nil
      · exact List.nodup_append.mpr ⟨hnodup, List.nodup_singleton slot, fun x hx y hy hxy =>
          hnew slot rfl (List.mem_singleton.mp hy ▸ hxy ▸ hx)⟩
  | captureStart h' =>
      rcases r with e | ⟨⟨⟩⟩
      · exact List.nodup_nil
      · exact hnodup
  | queueFrame h' slot cb =>
      rcases r with e | ⟨⟨⟩⟩
      · exact List.nodup_nil
      · exact hnodup.tail
  | captureEnd h' => exact List.nodup_nil
  | frameRevokeAll h' => exact List.nodup_nil
  | _ => exact hnodup

theorem subset_afterCall (hsub : ∀ slot ∈ v.unqueued, slot ∈ v.slots) :
    ∀ slot ∈ (afterCall v c r).unqueued, slot ∈ (afterCall v c r).slots := by
  have hnil : ∀ {l : List FrameSlotId}, ∀ slot ∈ ([] : List FrameSlotId), slot ∈ l := by simp
  rw [afterCall_fields]
  cases c with
  | announceFrame h' size =>
      rcases r with e | slot
      · exact hnil
      · intro slot' hslot
        rcases List.mem_append.mp hslot with hslot | hslot
        · exact List.mem_append_left _ (hsub slot' hslot)
        · exact List.mem_append_right _ hslot
  | captureStart h' =>
      rcases r with e | ⟨⟨⟩⟩
      · exact hnil
      · exact hsub
  | queueFrame h' slot cb =>
      rcases r with e | ⟨⟨⟩⟩
      · exact hnil
      · exact fun slot' hslot => hsub slot' (List.mem_of_mem_tail hslot)
  | captureEnd h' => exact hnil
  | frameRevokeAll h' => exact hnil
  | _ => exact hsub

theorem callbackId_afterCall {cb : FrameCallbackId}
    (hcb : (afterCall v c r).callbackId = some cb) :
    installs cb ⟨c, r⟩ = true ∨ (v.callbackId = some cb ∧ ¬ uninstalls cb ⟨c, r⟩ = true) := by
  rw [afterCall_fields] at hcb
  cases c with
  | installFrameCallback f => exact Or.inl (decide_eq_true (Option.some.inj hcb))
  | uninstallFrameCallback id => cases hcb
  | _ => exact Or.inr ⟨hcb, by simp [uninstalls]⟩

/-- A frame is queued on the open capture of the owner, and is one of its slots. -/
theorem queuesUnder_spec (hc : mayCall v c) {h : CameraHandle} {cb : FrameCallbackId}
    (he : queuesUnder h cb ⟨c, r⟩ = true) :
    (afterCall v c r).handle = some h ∧ (afterCall v c r).window.isSome ∧
      (afterCall v c r).slots = v.slots ∧ ∃ slot, slot ∈ v.unqueued := by
  rw [afterCall_fields]
  cases c with
  | queueFrame h' slot cb' =>
      obtain ⟨rfl, rfl⟩ := of_decide_eq_true he
      refine ⟨hc.1, ?_, rfl, slot, List.mem_of_mem_head? hc.2.2.2⟩
      -- the window stays open even if the SDK refuses the frame
      have hw : v.window.isSome := hc.2.2.1
      rcases r with e | ⟨⟨⟩⟩ <;> simpa [windowAfter] using hw
  | _ => cases he

/-- A camera with an installed callback is not closed. -/
theorem handle_persists (hc : mayCall v c) {h : CameraHandle} {cb : FrameCallbackId}
    (hcb : v.callbackId = some cb) (hh : v.handle = some h) :
    (afterCall v c r).handle = some h := by
  rw [afterCall_fields]
  cases c with
  | openCamera id =>
      rw [show v = {} from hc] at hh
      cases hh
  | closeCamera h' =>
      rw [callbackId, hc.2.1] at hcb
      cases hcb
  | _ => exact hh

theorem discoveryCallbackId_afterCall {cb : DiscoveryCallbackId}
    (hcb : (afterCall v c r).discoveryCallbackId = some cb) :
    installsDiscovery cb ⟨c, r⟩ = true ∨
      (v.discoveryCallbackId = some cb ∧ ¬ uninstallsDiscovery cb ⟨c, r⟩ = true) := by
  rw [afterCall_fields] at hcb
  cases c with
  | installDiscoveryCallback f => exact Or.inl (decide_eq_true (Option.some.inj hcb))
  | uninstallDiscoveryCallback id => cases hcb
  | _ => exact Or.inr ⟨hcb, by simp [uninstallsDiscovery]⟩

theorem registration_afterCall {r' : DiscoveryRegistrationHandle}
    (hr : (afterCall v c r).registration = some r') :
    registers r' ⟨c, r⟩ = true ∨ (v.registration = some r' ∧ ¬ unregisters r' ⟨c, r⟩ = true) := by
  rw [afterCall_fields] at hr
  cases c with
  | registerDiscovery cb =>
      rcases r with e | r''
      · exact Or.inr ⟨hr, by simp [unregisters]⟩
      · exact Or.inl (decide_eq_true (Option.some.inj hr))
  | unregisterDiscovery r'' => cases hr
  | _ => exact Or.inr ⟨hr, by simp [unregisters]⟩

theorem registration_persists (hc : mayCall v c) {r' : DiscoveryRegistrationHandle}
    (hr : v.registration = some r') (he : ¬ unregisters r' ⟨c, r⟩ = true) :
    (afterCall v c r).registration = some r' := by
  rw [afterCall_fields]
  cases c with
  | registerDiscovery cb =>
      rw [hc.2] at hr
      cases hr
  | unregisterDiscovery r'' =>
      obtain rfl : r'' = r' := Option.some.inj (hc.symm.trans hr)
      exact absurd (decide_eq_true rfl) he
  | _ => exact hr

theorem registersUnder_spec {cb : DiscoveryCallbackId} {r' : DiscoveryRegistrationHandle}
    (he : registersUnder cb r' ⟨c, r⟩ = true) :
    (afterCall v c r).registration = some r' := by
  cases c with
  | registerDiscovery cb' =>
      rcases r with e | r''
      · cases he
      · exact congrArg some (of_decide_eq_true he).2
  | _ => cases he

theorem callbackId_persists (hc : mayCall v c) {cb : FrameCallbackId}
    (hcb : v.callbackId = some cb) (he : ¬ uninstalls cb ⟨c, r⟩ = true) :
    (afterCall v c r).callbackId = some cb := by
  rw [afterCall_fields]
  cases c with
  | installFrameCallback f =>
      rw [callbackId, hc.2] at hcb
      cases hcb
  | uninstallFrameCallback id =>
      obtain rfl : id = cb := Option.some.inj (hc.1.symm.trans hcb)
      exact absurd (decide_eq_true rfl) he
  | _ => exact hcb

theorem discoveryCallbackId_persists (hc : mayCall v c) {cb : DiscoveryCallbackId}
    (hcb : v.discoveryCallbackId = some cb) (he : ¬ uninstallsDiscovery cb ⟨c, r⟩ = true) :
    (afterCall v c r).discoveryCallbackId = some cb := by
  rw [afterCall_fields]
  cases c with
  | installDiscoveryCallback f =>
      rw [show v = {} from hc] at hcb
      cases hcb
  | uninstallDiscoveryCallback id =>
      obtain rfl : id = cb := Option.some.inj (hc.1.symm.trans hcb)
      exact absurd (decide_eq_true rfl) he
  | _ => exact hcb

theorem installs_spec {cb : FrameCallbackId} (he : installs cb ⟨c, r⟩ = true) :
    (afterCall v c r).callbackId = some cb := by
  cases c with
  | installFrameCallback f => exact congrArg some (of_decide_eq_true he)
  | _ => cases he

theorem installsDiscovery_spec {cb : DiscoveryCallbackId}
    (he : installsDiscovery cb ⟨c, r⟩ = true) :
    (afterCall v c r).discoveryCallbackId = some cb := by
  cases c with
  | installDiscoveryCallback f => exact congrArg some (of_decide_eq_true he)
  | _ => cases he

theorem registers_spec {r' : DiscoveryRegistrationHandle} (he : registers r' ⟨c, r⟩ = true) :
    (afterCall v c r).registration = some r' := by
  cases c with
  | registerDiscovery cb =>
      rcases r with e | r''
      · cases he
      · exact congrArg some (of_decide_eq_true he)
  | _ => cases he

end Views

/-! ## The step lemma -/

/-- What an owner has just been issued is not in the trace. -/
theorem not_since_of_not_touched {log : List (Event Port)} {id : Ident} {p q : Event Port → Prop}
    (hlog : ∀ e ∈ log, ¬ Touches e id) (hp : ∀ e, p e → Touches e id) : ¬ Since p q log := by
  intro hs
  obtain ⟨e, he, hpe⟩ := hs.exists_mem
  exact hlog e he (hp e hpe)

/-- A camera that has just been opened is all its owner has. -/
theorem afterCall_of_issued_camera {v : Holdings} {c : PortCall} {r : c.Resp} (hc : mayCall v c)
    {h : CameraHandle} (hissued : issued ⟨c, r⟩ = some (.camera h)) :
    ∃ id, c = .openCamera id ∧ afterCall v c r = { camera := some (h, id) } := by
  cases c with
  | openCamera id =>
      rcases r with (e | h') | m
      · cases hissued
      · obtain rfl : h' = h := by simpa [issued] using hissued
        refine ⟨id, rfl, ?_⟩
        rw [show v = {} from hc]
        rfl
      · cases hissued
  | announceFrame h' size => rcases r with e | slot <;> cases hissued
  | registerDiscovery cb => rcases r with e | r' <;> cases hissued
  | _ => cases hissued

/-- What is open about an identifier of the owner's after its call was opened by the call, or was
open before it about an identifier the owner had. -/
theorem since_afterCall {log : List (Event Port)} {v : Holdings} {c : PortCall} {r : c.Resp}
    {i : Ident} {p q : Event Port → Prop}
    (hfresh : ∀ id, issued ⟨c, r⟩ = some id → ¬ v.owns id ∧ ∀ e ∈ log, ¬ Touches e id)
    (hp : ∀ e, p e → Touches e i) (howns : (afterCall v c r).owns i)
    (hopen : Since p q (log ++ [⟨c, r⟩])) :
    p ⟨c, r⟩ ∨ v.owns i ∧ Since p q log ∧ ¬ q ⟨c, r⟩ := by
  rcases since_append.mp hopen with hs | ⟨hopen, hq⟩
  · exact Or.inl hs
  · rcases owns_afterCall howns with howns | hissued
    · exact Or.inr ⟨howns, hopen, hq⟩
    · exact absurd hopen (not_since_of_not_touched (hfresh i hissued).2 hp)

/-- **A call of an owner keeps its view a mirror of the trace.** -/
theorem Mirrors.step {log : List (Event Port)} {v : Holdings} {c : PortCall} (hv : Mirrors log v)
    (hc : mayCall v c) (r : c.Resp)
    (hfresh : ∀ id, issued ⟨c, r⟩ = some id → ¬ v.owns id ∧ ∀ e ∈ log, ¬ Touches e id) :
    Mirrors (log ++ [⟨c, r⟩]) (afterCall v c r) where
  capture h hh := by
    rcases owns_afterCall (i := .camera h) hh with hh | hissued
    · rw [CaptureOpen, since_append, window_afterCall hc hh, ← hv.capture h hh]
      rfl
    -- the camera is new: no call of the trace was about it
    · obtain ⟨id, rfl, hview⟩ := afterCall_of_issued_camera hc hissued
      rw [hview]
      refine iff_of_false (fun hopen => ?_) (by simp)
      rcases since_append.mp hopen with hs | ⟨hopen, -⟩
      · cases hs
      · exact not_since_of_not_touched (hfresh _ hissued).2 (fun e => startsCapture_touches) hopen
  acquisitionOpen h hh hopen := by
    rcases since_afterCall (i := .camera h) hfresh (fun e => startsAcquisition_touches) hh hopen
      with hs | ⟨hh, hopen, hend⟩
    · exact (startsAcquisition_spec hc hs).1
    · exact (window_afterCall hc hh).mpr (Or.inr ⟨hv.acquisitionOpen h hh hopen, hend⟩)
  acquiring h hh hopen := by
    rcases since_afterCall (i := .camera h) hfresh (fun e => startsAcquisition_touches) hh hopen
      with hs | ⟨hh, hopen, hstop⟩
    · exact (startsAcquisition_spec hc hs).2
    · exact acquiring_persists hc hh (hv.acquiring h hh hopen) hstop
  announced h slot hh hann := by
    rcases since_afterCall (i := .camera h) hfresh (fun e => announces_touches) hh hann
      with hs | ⟨hh, hann, hrevoke⟩
    · exact (announces_spec hs).1
    · exact slots_persist hc hh (hv.announced h slot hh hann) hrevoke
  queueable h slot hh hslot := by
    rcases owns_afterCall (i := .camera h) hh with hh | hissued
    · rcases unqueued_afterCall hc hv.nodup hh hslot with hs | ⟨hslot, hqueue, hrevoke⟩
      · exact since_append.mpr (Or.inl hs)
      · exact since_append.mpr (Or.inr ⟨hv.queueable h slot hh hslot, by simp [hqueue, hrevoke]⟩)
    · obtain ⟨id, rfl, hview⟩ := afterCall_of_issued_camera hc hissued
      rw [hview] at hslot
      exact absurd hslot List.not_mem_nil
  nodup := nodup_afterCall hv.nodup fun slot hissued hmem => (hfresh _ hissued).1 (Or.inr hmem)
  subset := subset_afterCall hv.subset
  callback cb hcb := by
    rcases callbackId_afterCall hcb with hs | ⟨hcb, hun⟩
    · exact since_append.mpr (Or.inl hs)
    · exact since_append.mpr (Or.inr ⟨hv.callback cb hcb, hun⟩)
  revoked cb h hcb hopen := by
    rcases since_afterCall (i := .frameCallback cb) hfresh (fun e => queuesUnder_touches) hcb hopen
      with hs | ⟨hcb, hopen, hrevoke⟩
    · obtain ⟨hh, -, hslots, slot, hslot⟩ := queuesUnder_spec hc hs
      exact ⟨hh, hslots ▸ List.ne_nil_of_mem (hv.subset slot hslot)⟩
    · obtain ⟨hh, hslots⟩ := hv.revoked cb h hcb hopen
      obtain ⟨slot, hslot⟩ := List.exists_mem_of_ne_nil _ hslots
      exact ⟨handle_persists hc hcb hh, List.ne_nil_of_mem (slots_persist hc hh hslot hrevoke)⟩
  ended cb h hcb hopen := by
    rcases since_afterCall (i := .frameCallback cb) hfresh (fun e => queuesUnder_touches) hcb hopen
      with hs | ⟨hcb, hopen, hend⟩
    · obtain ⟨hh, hw, -⟩ := queuesUnder_spec hc hs
      exact ⟨hh, hw⟩
    · obtain ⟨hh, hw⟩ := hv.ended cb h hcb hopen
      exact ⟨handle_persists hc hcb hh, (window_afterCall hc hh).mpr (Or.inr ⟨hw, hend⟩)⟩
  discoveryCallback cb hcb := by
    rcases discoveryCallbackId_afterCall hcb with hs | ⟨hcb, hun⟩
    · exact since_append.mpr (Or.inl hs)
    · exact since_append.mpr (Or.inr ⟨hv.discoveryCallback cb hcb, hun⟩)
  registration r hr := by
    rcases registration_afterCall hr with hs | ⟨hr, hun⟩
    · exact since_append.mpr (Or.inl hs)
    · exact since_append.mpr (Or.inr ⟨hv.registration r hr, hun⟩)
  discoveryInUse cb r hcb hopen := by
    rcases since_afterCall (i := .discoveryCallback cb) hfresh (fun e => registersUnder_touches) hcb
      hopen with hs | ⟨hcb, hopen, hun⟩
    · exact registersUnder_spec hs
    · exact registration_persists hc (hv.discoveryInUse cb r hcb hopen) hun

/-! ## All owners at once -/

theorem mem_issuedIn {log : List (Event Port)} {id : Ident} :
    id ∈ issuedIn log ↔ ∃ e ∈ log, issued e = some id := List.mem_filterMap

theorem issuedIn_append (log : List (Event Port)) (e : Event Port) :
    issuedIn (log ++ [e]) = issuedIn log ++ (issued e).toList := by
  rcases he : issued e with - | id <;> simp [issuedIn, List.filterMap_append, he]

/-- An identifier issued now was not issued before. -/
theorem NoReissue.fresh {log : List (Event Port)} {e : Event Port} (h : NoReissue (log ++ [e]))
    {id : Ident} (hid : issued e = some id) : id ∉ issuedIn log := by
  rw [NoReissue, issuedIn_append, hid] at h
  intro hmem
  exact (List.nodup_append.mp h).2.2 id hmem id (List.mem_singleton_self id) rfl

/-- What the owners of a world have at the port after a trace. Nobody has abandoned a frame callback in
`E`. -/
structure Conforming {σ : Type} (E : FrameCallbackId → Prop) (s : σ × List (Event Port))
    (L : Nat → Holdings) : Prop where
  conforms : Conforms Allowed s.2
  named : ∀ e ∈ s.2, ∀ id ∈ e.call.names, id ∈ issuedIn s.2
  owned : ∀ x id, (L x).owns id → id ∈ issuedIn s.2
  unique : ∀ x y id, (L x).owns id → (L y).owns id → x = y
  mirrors : ∀ x, Mirrors s.2 (L x)
  callbacks : ∀ cb, E cb → Installed s.2 cb → ∃ x, (L x).callbackId = some cb
  discoveryCallbacks : ∀ cb, DiscoveryInstalled s.2 cb → ∃ x, (L x).discoveryCallbackId = some cb
  registrations : ∀ r, Registered s.2 r → ∃ x, (L x).registration = some r

section Serves

variable {σ : Type} {m : VmbRuntime σ} {E : FrameCallbackId → Prop} {s : σ × List (Event Port)}
  {L : Nat → Holdings}

/-- What somebody has, and keeps in a call of `x` unless it ends, somebody has afterwards. -/
theorem exists_update {β : Type} {get : Holdings → Option β} {b : β} {x : Nat} {v : Holdings}
    (hL : ∃ y, get (L y) = some b) (hkeep : get (L x) = some b → get v = some b) :
    ∃ y, get (Function.update L x v y) = some b := by
  obtain ⟨y, hy⟩ := hL
  by_cases hyx : y = x
  · subst hyx
    exact ⟨y, by rw [Function.update_self]; exact hkeep hy⟩
  · exact ⟨y, by rw [Function.update_of_ne hyx]; exact hy⟩

theorem Conforming.step (hs : Conforming E s L) {x : Nat} {c : PortCall} (hc : mayCall (L x) c)
    (r : c.Resp) (t : σ) (hids : NoReissue (s.2 ++ [⟨c, r⟩])) :
    Conforming E (t, s.2 ++ [⟨c, r⟩]) (Function.update L x (afterCall (L x) c r)) := by
  have hmono : ∀ id, id ∈ issuedIn s.2 → id ∈ issuedIn (s.2 ++ [⟨c, r⟩]) := by
    intro id hid
    rw [issuedIn_append]
    exact List.mem_append_left _ hid
  have hnew : ∀ id, issued ⟨c, r⟩ = some id → id ∈ issuedIn (s.2 ++ [⟨c, r⟩]) := by
    intro id hid
    rw [issuedIn_append, hid]
    exact List.mem_append_right _ (List.mem_singleton_self id)
  have huntouched : ∀ id, issued ⟨c, r⟩ = some id → ∀ e ∈ s.2, ¬ Touches e id := by
    rintro id hid e he (hname | hissued)
    · exact hids.fresh hid (hs.named e he id hname)
    · exact hids.fresh hid (mem_issuedIn.mpr ⟨e, he, hissued⟩)
  have howns : ∀ y id, (Function.update L x (afterCall (L x) c r) y).owns id →
      (L y).owns id ∨ (y = x ∧ issued ⟨c, r⟩ = some id) := by
    intro y id hid
    by_cases hy : y = x
    · subst hy
      rw [Function.update_self] at hid
      exact (owns_afterCall hid).imp_right fun h => ⟨rfl, h⟩
    · rw [Function.update_of_ne hy] at hid
      exact Or.inl hid
  refine ⟨conforms_append.mpr ⟨hs.conforms, hc.allowed (hs.mirrors x)⟩, fun e he id hname => ?_,
    fun y id hid => ?_, fun y z id hy hz => ?_, fun y => ?_, fun cb hE hcb => ?_, fun cb hcb => ?_,
    fun r' hr => ?_⟩
  · rcases List.mem_append.mp he with he | he
    · exact hmono id (hs.named e he id hname)
    · obtain rfl := List.mem_singleton.mp he
      exact hmono id (hs.owned x id (hc.owns hname))
  · rcases howns y id hid with hid | ⟨-, hid⟩
    · exact hmono id (hs.owned y id hid)
    · exact hnew id hid
  · rcases howns y id hy with hy' | ⟨hyx, hissued⟩ <;>
      rcases howns z id hz with hz' | ⟨hzx, hissued'⟩
    · exact hs.unique y z id hy' hz'
    -- one has had the identifier and the other has just been issued it
    · exact absurd (hs.owned y id hy') (hids.fresh hissued')
    · exact absurd (hs.owned z id hz') (hids.fresh hissued)
    · exact hyx.trans hzx.symm
  · by_cases hy : y = x
    · subst hy
      rw [Function.update_self]
      -- what is issued now belongs to nobody and is not in the trace
      exact (hs.mirrors y).step hc r fun id hissued =>
        ⟨fun hid => hids.fresh hissued (hs.owned y id hid), huntouched id hissued⟩
    · rw [Function.update_of_ne hy]
      -- whatever the call touches belongs to `x` or is new, so it is not in this view
      refine (hs.mirrors y).frame ?_
      rintro id hid (hname | hissued)
      · exact hy (hs.unique y x id hid (hc.owns hname))
      · exact hids.fresh hissued (hs.owned y id hid)
  · rcases since_append.mp hcb with hi | ⟨hcb, hun⟩
    · exact ⟨x, by rw [Function.update_self]; exact installs_spec hi⟩
    · exact exists_update (hs.callbacks cb hE hcb) fun h => callbackId_persists hc h hun
  · rcases since_append.mp hcb with hi | ⟨hcb, hun⟩
    · exact ⟨x, by rw [Function.update_self]; exact installsDiscovery_spec hi⟩
    · exact exists_update (hs.discoveryCallbacks cb hcb) fun h =>
        discoveryCallbackId_persists hc h hun
  · rcases since_append.mp hr with hi | ⟨hr, hun⟩
    · exact ⟨x, by rw [Function.update_self]; exact registers_spec hi⟩
    · exact @exists_update L _ Holdings.registration _ _ _ (hs.registrations r' hr) fun h =>
        registration_persists hc h hun

theorem serves_conforming (m : VmbRuntime σ) (E : FrameCallbackId → Prop) :
    Serves protocol m.logged (Conforming E) Holdings.Idle fun s => NoReissue s.2 where
  back s c h := by
    rw [Machine.logged, NoReissue, issuedIn_append] at h
    exact (List.nodup_append.mp h).1
  step _ _ _ _ hs _ hids hc := hs.step hc _ _ hids

/-- A call of a `VmbSystem` concerns no owner. -/
theorem Conforming.system (hs : Conforming E s L) {c : PortCall}
    (hc : OfSystem c) (r : c.Resp) (t : σ) :
    Conforming E (t, s.2 ++ [⟨c, r⟩]) L := by
  have hnames : c.names = [] := by rcases hc with rfl | rfl | rfl <;> rfl
  have hissued : issued ⟨c, r⟩ = none := by rcases hc with rfl | rfl | rfl <;> rfl
  have htouch : ∀ id, ¬ Touches ⟨c, r⟩ id := by
    rintro id (hname | hid)
    · simp [hnames] at hname
    · simp [hissued] at hid
  have hin : issuedIn (s.2 ++ [⟨c, r⟩]) = issuedIn s.2 := by
    rw [issuedIn_append, hissued]
    exact List.append_nil _
  have hall : AllowedCall s.2 c := by rcases hc with rfl | rfl | rfl <;> trivial
  refine ⟨conforms_append.mpr ⟨hs.conforms, hall⟩, fun e he id hname => ?_, fun x id hid => ?_,
    hs.unique, fun x => (hs.mirrors x).frame fun id _ => htouch id, fun cb hE hcb => ?_,
    fun cb hcb => ?_, fun r' hr => ?_⟩
  · rw [hin]
    rcases List.mem_append.mp he with he | he
    · exact hs.named e he id hname
    · obtain rfl := List.mem_singleton.mp he
      exact absurd (Or.inl hname) (htouch id)
  · rw [hin]
    exact hs.owned x id hid
  · refine hs.callbacks cb hE (Since.of_append (fun e he => ?_) hcb)
    obtain rfl := List.mem_singleton.mp he
    rcases hc with rfl | rfl | rfl <;> simp [installs]
  · refine hs.discoveryCallbacks cb (Since.of_append (fun e he => ?_) hcb)
    obtain rfl := List.mem_singleton.mp he
    rcases hc with rfl | rfl | rfl <;> simp [installsDiscovery]
  · refine hs.registrations r' (Since.of_append (fun e he => ?_) hr)
    obtain rfl := List.mem_singleton.mp he
    rcases hc with rfl | rfl | rfl <;> simp [registers]

/-- If the callback may be abandoned, abandoning it goes unnoticed. -/
theorem forgets_conforming {cb : FrameCallbackId} (hE : ¬ E cb) :
    Forgets (Conforming (σ := σ) E) cb := by
  intro s L x f hs hx
  have howns : ∀ y id, (Function.update L x { L x with callback := none } y).owns id →
      (L y).owns id := by
    intro y id hid
    by_cases hy : y = x
    · subst hy
      rw [Function.update_self] at hid
      cases id with
      | frameCallback cb => cases hid
      | _ => exact hid
    · rw [Function.update_of_ne hy] at hid
      exact hid
  refine ⟨hs.conforms, hs.named, fun y id hid => hs.owned y id (howns y id hid),
    fun y z id hy hz => hs.unique y z id (howns y id hy) (howns z id hz), fun y => ?_,
    fun cb' hcb' hin => ?_, fun cb hcb => ?_, fun r hr => ?_⟩
  · by_cases hy : y = x
    · subst hy
      rw [Function.update_self]
      exact { hs.mirrors y with
        callback := fun cb hcb => by cases hcb
        revoked := fun cb h hcb => by cases hcb
        ended := fun cb h hcb => by cases hcb }
    · rw [Function.update_of_ne hy]
      exact hs.mirrors y
  · refine exists_update (hs.callbacks cb' hcb' hin) fun hsome => ?_
    rw [Holdings.callbackId, hx] at hsome
    cases hsome
    exact absurd hcb' hE
  · exact exists_update (hs.discoveryCallbacks cb hcb) id
  · exact @exists_update L _ Holdings.registration _ _ _ (hs.registrations r hr) id

end Serves

/-! ## Runs -/

variable {σ : Type}

theorem mirrors_empty : Mirrors [] {} where
  capture h hh := by cases hh
  acquisitionOpen h hh := by cases hh
  acquiring h hh := by cases hh
  announced h slot hh := by cases hh
  queueable h slot hh := by cases hh
  nodup := List.nodup_nil
  subset slot hslot := absurd hslot List.not_mem_nil
  callback cb hcb := by cases hcb
  revoked cb h hcb := by cases hcb
  ended cb h hcb := by cases hcb
  discoveryCallback cb hcb := by cases hcb
  registration r hr := by cases hr
  discoveryInUse cb r hcb := by cases hcb

theorem conforming_empty (E : FrameCallbackId → Prop) (s : σ) :
    Conforming E (s, []) World.empty.holdings where
  conforms := conforms_nil
  named _ he := absurd he List.not_mem_nil
  owned _ id hid := absurd hid (not_owns_empty id)
  unique _ _ id hid := absurd hid (not_owns_empty id)
  mirrors _ := mirrors_empty
  callbacks _ _ hcb := absurd hcb since_nil
  discoveryCallbacks _ hcb := absurd hcb since_nil
  registrations _ hr := absurd hr since_nil

/-- An identifier that was issued was issued once. -/
theorem countP_issued {log : List (Event Port)} (hids : NoReissue log) {id : Ident}
    (hid : id ∈ issuedIn log) {p : Event Port → Bool} (hp : ∀ e, p e = true ↔ issued e = some id) :
    log.countP p = 1 := by
  have hcount : (issuedIn log).count id = 1 := List.nodup_iff_count_eq_one.mp hids id hid
  rw [issuedIn, List.count_filterMap] at hcount
  rw [← hcount]
  exact List.countP_congr fun e _ => by simp [hp e]

theorem returnedOnce_of_conforms {log : List (Event Port)} {p q : Event Port → Bool} {alive : Prop}
    (hlog : Conforms Allowed log)
    (hq : ∀ pre e, q e = true → Allowed pre e → Since (p ·) (q ·) pre)
    (hp : log.countP p = 1) (halive : Since (p ·) (q ·) log ↔ alive) :
    ReturnedOnce alive (log.countP q) := by
  have hcount := countP_of_conforms (l := log) (p := p) (q := q)
    (fun pre e post hl hqe => hq pre e hqe (hlog pre e post hl)) hp
  rw [← halive]
  constructor
  · intro hs
    rw [hcount, if_pos hs]
  · intro hs
    rw [hcount, if_neg hs]

theorem installs_iff {cb : FrameCallbackId} (e : Event Port) :
    installs cb e = true ↔ issued e = some (.frameCallback cb) := by
  rcases e with ⟨c, r⟩
  cases c with
  | openCamera id => rcases r with (e | h) | m <;> simp [installs, issued]
  | announceFrame h size => rcases r with e | slot <;> simp [installs, issued]
  | registerDiscovery id => rcases r with e | r' <;> simp [installs, issued]
  | _ => simp [installs, issued]

theorem installsDiscovery_iff {cb : DiscoveryCallbackId} (e : Event Port) :
    installsDiscovery cb e = true ↔ issued e = some (.discoveryCallback cb) := by
  rcases e with ⟨c, r⟩
  cases c with
  | openCamera id => rcases r with (e | h) | m <;> simp [installsDiscovery, issued]
  | announceFrame h size => rcases r with e | slot <;> simp [installsDiscovery, issued]
  | registerDiscovery id => rcases r with e | r' <;> simp [installsDiscovery, issued]
  | _ => simp [installsDiscovery, issued]

theorem registers_iff {r : DiscoveryRegistrationHandle} (e : Event Port) :
    registers r e = true ↔ issued e = some (.registration r) := by
  rcases e with ⟨c, r⟩
  cases c with
  | openCamera id => rcases r with (e | h) | m <;> simp [registers, issued]
  | announceFrame h size => rcases r with e | slot <;> simp [registers, issued]
  | registerDiscovery id => rcases r with e | r' <;> simp [registers, issued]
  | _ => simp [registers, issued]

/-- A frame callback is given back when its session ends, unless it is one of those `abandoned`. -/
def FrameCallbacksReturned (abandoned : List FrameCallbackId) (log : List (Event Port)) (W : World) :
    Prop :=
  ∀ cb, .frameCallback cb ∈ issuedIn log → cb ∉ abandoned →
    ReturnedOnce (W.CapturesUnder cb) (log.countP (uninstalls cb))

/-- A discovery callback and a registration are given back when the registration is dropped. -/
def DiscoveryReturned (log : List (Event Port)) (W : World) : Prop :=
  (∀ cb, .discoveryCallback cb ∈ issuedIn log →
    ReturnedOnce (W.SubscribesUnder cb) (log.countP (uninstallsDiscovery cb))) ∧
  ∀ r, .registration r ∈ issuedIn log →
    ReturnedOnce (W.RegisteredAs r) (log.countP (unregisters r))

theorem Allowed.installed {pre : List (Event Port)} {e : Event Port} (h : Allowed pre e)
    {cb : FrameCallbackId} (he : uninstalls cb e = true) : Installed pre cb := by
  rcases e with ⟨c, r⟩
  cases c with
  | uninstallFrameCallback cb' =>
      obtain rfl := of_decide_eq_true he
      exact h.1
  | _ => cases he

theorem Allowed.discoveryInstalled {pre : List (Event Port)} {e : Event Port} (h : Allowed pre e)
    {cb : DiscoveryCallbackId} (he : uninstallsDiscovery cb e = true) :
    DiscoveryInstalled pre cb := by
  rcases e with ⟨c, r⟩
  cases c with
  | uninstallDiscoveryCallback cb' =>
      obtain rfl := of_decide_eq_true he
      exact h.1
  | _ => cases he

theorem Allowed.registered {pre : List (Event Port)} {e : Event Port} (h : Allowed pre e)
    {r : DiscoveryRegistrationHandle} (he : unregisters r e = true) : Registered pre r := by
  rcases e with ⟨c, u⟩
  cases c with
  | unregisterDiscovery r' =>
      obtain rfl := of_decide_eq_true he
      exact h
  | _ => cases he

section Returned

variable {E : FrameCallbackId → Prop} {abandoned : List FrameCallbackId} {s : σ × List (Event Port)}
  {W : World}

theorem Conforming.frameCallbacksReturned (hs : Conforming (· ∉ abandoned) s W.holdings)
    (hids : NoReissue s.2) : FrameCallbacksReturned abandoned s.2 W := by
  intro cb hcb hE
  refine returnedOnce_of_conforms hs.conforms (fun pre e he hall => hall.installed he)
    (countP_issued hids hcb installs_iff) ?_
  rw [World.capturesUnder_iff]
  exact ⟨hs.callbacks cb hE, fun ⟨x, hx⟩ => (hs.mirrors x).callback cb hx⟩

theorem Conforming.discoveryReturned (hs : Conforming E s W.holdings) (hids : NoReissue s.2) :
    DiscoveryReturned s.2 W := by
  refine ⟨fun cb hcb => ?_, fun r hr => ?_⟩
  · refine returnedOnce_of_conforms hs.conforms (fun pre e he hall => hall.discoveryInstalled he)
      (countP_issued hids hcb installsDiscovery_iff) ?_
    rw [World.subscribesUnder_iff]
    exact ⟨hs.discoveryCallbacks cb, fun ⟨x, hx⟩ => (hs.mirrors x).discoveryCallback cb hx⟩
  · refine returnedOnce_of_conforms hs.conforms (fun pre e he hall => hall.registered he)
      (countP_issued hids hr registers_iff) ?_
    rw [World.registeredAs_iff]
    exact ⟨hs.registrations r, fun ⟨x, hx⟩ => (hs.mirrors x).registration r hx⟩

end Returned

theorem conforming_runOps (m : VmbRuntime σ) (s : σ) (ops : List Op)
    (hids : NoReissue ((runOps ops .empty).run m.logged (s, [])).2.2) :
    Conforming (· ∉ abandonedIn m.logged ops .empty (s, []))
      ((runOps ops .empty).run m.logged (s, [])).2
      ((runOps ops .empty).run m.logged (s, [])).1.2.holdings :=
  runOps_serves (serves_conforming m _) (fun _ _ _ hs hc => hs.system hc _ _) ops .empty (s, [])
    (conforming_empty _ s) (fun _ hcb => forgets_conforming (not_not_intro hcb)) hids

/-- **Port-protocol conformance.** On a runtime that issues no identifier twice, whatever it answers,
every call of a run is allowed by the trace before it; every discovery callback and registration is
given back exactly once, when the registration is dropped; and so is every frame callback when its
session ends, except those of the starts that panicked. No start does whose slot vector can be
allocated. -/
theorem conforms_allowed (m : VmbRuntime σ) (s : σ) (ops : List Op)
    (hids : NoReissue ((runOps ops .empty).run m.logged (s, [])).2.2) :
    Conforms Allowed ((runOps ops .empty).run m.logged (s, [])).2.2 ∧
      DiscoveryReturned ((runOps ops .empty).run m.logged (s, [])).2.2
        ((runOps ops .empty).run m.logged (s, [])).1.2 ∧
      FrameCallbacksReturned (abandonedIn m.logged ops .empty (s, []))
        ((runOps ops .empty).run m.logged (s, [])).2.2
        ((runOps ops .empty).run m.logged (s, [])).1.2 ∧
      ((∀ op ∈ ops, op.action.Allocatable) → abandonedIn m.logged ops .empty (s, []) = []) := by
  have hs := conforming_runOps m s ops hids
  exact ⟨hs.conforms, hs.discoveryReturned hids, hs.frameCallbacksReturned hids,
    fun hall => abandonedIn_eq_nil hall⟩

/-- A camera captures with two buffers, stops, and is dropped; a registration comes and goes. A start that
asks for too many buffers is refused while the first capture runs, and panics after it. -/
def captureAndSubscribe : List Op :=
  [⟨0, none, .openCamera "cam-a"⟩, ⟨1, none, .registerDiscovery ⟨9⟩⟩, ⟨0, none, .startCapture 2 ⟨1⟩⟩,
    ⟨0, none, .startCapture (2 ^ 60) ⟨2⟩⟩, ⟨1, none, .drop⟩, ⟨0, none, .stopCapture⟩,
    ⟨0, none, .startCapture (2 ^ 60) ⟨3⟩⟩, ⟨0, none, .drop⟩]

theorem conforms_allowed_captureAndSubscribe :
    Conforms Allowed ((runOps captureAndSubscribe .empty).run countingRuntime.logged (1, [])).2.2 ∧
      DiscoveryReturned ((runOps captureAndSubscribe .empty).run countingRuntime.logged (1, [])).2.2
        ((runOps captureAndSubscribe .empty).run countingRuntime.logged (1, [])).1.2 ∧
      FrameCallbacksReturned [⟨7⟩]
        ((runOps captureAndSubscribe .empty).run countingRuntime.logged (1, [])).2.2
        ((runOps captureAndSubscribe .empty).run countingRuntime.logged (1, [])).1.2 := by
  have hlost : abandonedIn countingRuntime.logged captureAndSubscribe .empty (1, []) = [⟨7⟩] := by
    decide +kernel
  obtain ⟨hallowed, hdiscovery, hframes, -⟩ :=
    conforms_allowed countingRuntime 1 captureAndSubscribe (by decide +kernel)
  rw [hlost] at hframes
  exact ⟨hallowed, hdiscovery, hframes⟩

/-- A start with more buffers than a slot vector can hold, and the camera is dropped. -/
def tooManyBuffers : List Op :=
  [⟨0, none, .openCamera "cam-a"⟩, ⟨0, none, .startCapture (2 ^ 60) ⟨1⟩⟩, ⟨0, none, .drop⟩]

/-- The panicking start leaves its callback installed for ever. -/
theorem not_frameCallbacksReturned_tooManyBuffers :
    NoReissue ((runOps tooManyBuffers .empty).run countingRuntime.logged (1, [])).2.2 ∧
      ¬ FrameCallbacksReturned []
        ((runOps tooManyBuffers .empty).run countingRuntime.logged (1, [])).2.2
        ((runOps tooManyBuffers .empty).run countingRuntime.logged (1, [])).1.2 := by
  refine ⟨by decide +kernel, fun h => ?_⟩
  have hreturned := (h ⟨2⟩ (by decide +kernel) List.not_mem_nil).2 ?_
  · have hcount : ((runOps tooManyBuffers .empty).run countingRuntime.logged (1, [])).2.2.countP
        (uninstalls ⟨2⟩) = 0 := by decide +kernel
    rw [hcount] at hreturned
    cases hreturned
  · rintro ⟨x, cam, f, session, hx, -⟩
    by_cases hx0 : x = 0
    · subst hx0
      cases hx
    · have hother : ∀ op ∈ tooManyBuffers, x ≠ op.target := by simpa [tooManyBuffers] using hx0
      rw [run_runOps_other hother] at hx
      cases hx

end Vmb.Core

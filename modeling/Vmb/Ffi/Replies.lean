/-
# Vmb.Ffi.Replies -- the return code decides the answer

A call of an owner is answered by the return code of the SDK call behind it, with the next identifier
where it issues one (`Tables.reply_sameAnswer`): what the owner names is in the tables, so the adapter
finds nothing to complain of itself. The counter moves with the answer, and `STARTED` with the calls
of a `VmbSystem` only.
-/
import Vmb.Core.Agreement
import Vmb.Ffi.Tables

namespace Vmb.Ffi

open Vmb.Lib Vmb.Core Vmb.Sdk

/-- The payload size the SDK reports. -/
def reportedPayload : Event VmbC → Option UInt32
  | ⟨.vmbPayloadSizeGet _, a⟩ => if a.1 = 0 then some a.2 else none
  | _ => none

variable {τ ι : Type} {E : FrameCallbackId → Prop} {s s' : FfiState} {L : ι → Holdings} {x : ι}
  {c : PortCall} {r : c.Resp} {evs : List (Event VmbC)} {v : Holdings}

/-- An owner's call that only talks to the SDK. -/
theorem Reports.reply_eq (hr : Reports c evs r) (hc : mayCall v c) {rc : Int32} {payload : UInt32}
    (hcode : ∀ e ∈ evs, code e = rc) (hpayload : ∀ e ∈ evs, ∀ n ∈ reportedPayload e, n = payload)
    (next : UInt64) : reply rc next payload c = r := by
  cases c with
  | listCameras => exact absurd hc id
  | payloadSize h =>
      rcases evs with - | ⟨⟨c, a⟩, - | ⟨e, evs⟩⟩
      · exact absurd hr id
      · cases c with
        | vmbPayloadSizeGet raw =>
            obtain rfl : r = (check a.1).map fun _ => a.2 := hr
            obtain rfl : a.1 = rc := hcode _ List.mem_cons_self
            by_cases hrc : a.1 = 0
            · have hn : a.2 = payload :=
                hpayload _ List.mem_cons_self a.2 (if_pos hrc)
              show report a.1 payload = _
              rw [hrc, hn]
              rfl
            · show report a.1 payload = _
              rw [check_of_ne hrc, report_of_ne hrc]
              rfl
        | _ => exact absurd hr id
      · cases c <;> exact absurd hr id
  | loadSettings h path =>
      rcases evs with - | ⟨e, - | ⟨e', evs⟩⟩
      · exact absurd hr id
      · exact (hcode e List.mem_cons_self) ▸ hr.symm
      · exact absurd hr id
  | runFeatureCommand h name =>
      rcases evs with - | ⟨e, - | ⟨e', evs⟩⟩
      · exact absurd hr id
      · exact (hcode e List.mem_cons_self) ▸ hr.symm
      · exact absurd hr id
  | captureStart h =>
      rcases evs with - | ⟨e, - | ⟨e', evs⟩⟩
      · exact absurd hr id
      · exact (hcode e List.mem_cons_self) ▸ hr.symm
      · exact absurd hr id
  | captureEnd h => rfl
  | captureQueueFlush h => rfl
  | _ => exact absurd hr id

/-- **An owner's call is answered by the code the SDK returns.** -/
theorem Tables.reply_sameAnswer (hs : Tables E s L) (hc : mayCall (L x) c) (hplain : c.Plain)
    (hstep : Step s c evs r s') {rc : Int32} {payload : UInt32} (hcode : ∀ e ∈ evs, code e = rc)
    (hpayload : ∀ e ∈ evs, ∀ n ∈ reportedPayload e, n = payload) :
    SameAnswer c (reply rc s.currentId payload c) r := by
  cases hstep with
  | lifecycle c evs r b hc' hevs =>
      rcases hc' with rfl | rfl
      · exact absurd hc id
      · exact absurd hc id
  | quiet c evs r hr hevs =>
      have hreply : reply rc s.currentId payload c = r := hr.reply_eq hc hcode hpayload _
      exact hreply ▸ .refl _
  | refused c r hc' hr =>
      rcases hs.refuses_cases hc hc' with ⟨id, rfl, hnul⟩ | ⟨h, path, rfl, hnul⟩
      · exact absurd hnul hplain
      · exact absurd ((mem_lossy_zero path).mp hnul) hplain
  | openFailed id cId rc' raw hc' hrc =>
      obtain rfl : rc' = rc := hcode _ List.mem_cons_self
      have hreply : reply rc' s.currentId payload (.openCamera id) =
          .returned (.error (sdkError rc')) := if_pos hrc
      exact hreply ▸ .refl _
  | opened id cId raw hc' hid =>
      obtain rfl : 0 = rc := hcode _ List.mem_cons_self
      have hreply : reply 0 s.currentId payload (.openCamera id) =
          .returned (.ok ⟨s.currentId, hid⟩) := dif_pos hid
      exact hreply ▸ .refl _
  | openPanicked id cId raw m hc' hid =>
      obtain rfl : 0 = rc := hcode _ List.mem_cons_self
      have hreply : reply 0 s.currentId payload (.openCamera id) =
          .panicked "identifiers exhausted" := dif_neg (not_not.mpr hid)
      show SameExit (reply 0 s.currentId payload (.openCamera id)) _
      rw [hreply]
      exact .panicked _ m
  | announceFailed h size raw rc' hraw hrc =>
      obtain rfl : rc' = rc := hcode _ List.mem_cons_self
      have hreply : reply rc' s.currentId payload (.announceFrame h size) =
          .error (sdkError rc') := report_of_ne hrc _
      exact hreply ▸ .refl _
  | announced h size raw hraw =>
      obtain rfl : 0 = rc := hcode _ List.mem_cons_self
      exact .refl _
  | queued h slot cb raw f box rc' hraw hcb hslot =>
      obtain rfl : rc' = rc := hcode _ List.mem_cons_self
      exact .refl _
  | registerFailed cb f rc' hcb hrc =>
      obtain rfl : rc' = rc := hcode _ List.mem_cons_self
      have hreply : reply rc' s.currentId payload (.registerDiscovery cb) =
          .error (sdkError rc') := report_of_ne hrc _
      exact hreply ▸ .refl _
  | registered cb f hcb =>
      obtain rfl : 0 = rc := hcode _ List.mem_cons_self
      exact .refl _
  | _ => exact .refl _

theorem Step.counter_eq (h : Step s c evs r s') : s'.counter = s.counter + counts ⟨c, r⟩ := by
  cases h with
  | lifecycle c evs r b hc hevs => rcases hc with rfl | rfl <;> rfl
  | quiet c evs r hr hevs =>
      cases c with
      | openCamera camera => exact absurd hr id
      | announceFrame h size => exact absurd hr id
      | registerDiscovery cb => exact absurd hr id
      | installFrameCallback f => exact absurd hr id
      | installDiscoveryCallback f => exact absurd hr id
      | _ => rfl
  | refused c r hc hr =>
      cases c with
      | openCamera id =>
          obtain ⟨context, rfl⟩ := hr
          rfl
      | announceFrame h size =>
          obtain ⟨context, rfl⟩ := hr
          rfl
      | registerDiscovery cb =>
          obtain ⟨context, rfl⟩ := hr
          rfl
      | installFrameCallback f => exact absurd hc id
      | installDiscoveryCallback f => exact absurd hc id
      | _ => rfl
  | _ => rfl

/-- Only the calls of a `VmbSystem` change `STARTED`. -/
theorem Step.started_eq (h : Step s c evs r s') (hc : ¬ OfSystem c) : s'.started = s.started := by
  cases h with
  | lifecycle c evs r b hc' hevs =>
      rcases hc' with rfl | rfl
      · exact absurd (Or.inl rfl) hc
      · exact absurd (Or.inr (Or.inr rfl)) hc
  | _ => rfl

/-- `startup` on the adapter. -/
theorem vmbFfiRuntime_startup (api : VmbApi τ) (s : FfiState × τ) :
    vmbFfiRuntime api s .startup =
        (if s.1.started then (.error .alreadyStarted, s)
        else (check (api s.2 .vmbStartup).1,
          ({ s.1 with started := decide (check (api s.2 .vmbStartup).1 = .ok ()) },
            (api s.2 .vmbStartup).2))) ∧
      sdkCalls api s .startup =
        if s.1.started then [] else [vmbEvent .vmbStartup (api s.2 .vmbStartup).1] := by
  have hprog : s.1.dispatch .startup = _ := FfiState.sequentially_startup s.1
  unfold vmbFfiRuntime sdkCalls
  rw [hprog]
  by_cases hstarted : s.1.started = true
  · simp only [hstarted, if_true]
    exact ⟨rfl, rfl⟩
  · simp only [hstarted]
    exact ⟨rfl, rfl⟩

theorem vmbFfiRuntime_shutdown (api : VmbApi τ) (s : FfiState × τ) :
    (vmbFfiRuntime api s .shutdown).2.1 = { s.1 with started := false } := by
  have hprog : s.1.dispatch .shutdown = _ := FfiState.sequentially_shutdown s.1
  unfold vmbFfiRuntime
  rw [hprog]
  split
  · rfl
  · rfl

end Vmb.Ffi

/-
# Vmb.Ffi.FailedCalls -- what a failed port call leaves behind

A method that returns `Err` should leave the tables as they were: the fake checks before it changes
anything, and `announce_frame` and `register_discovery` take back what the SDK refused. `queue_frame`
is the one method that changes its table before it asks the SDK and does not change it back: the
context keeps the new closure. `failed_unchanged_iff` says exactly which failed calls change
something.
-/
import Vmb.Ffi.CaptureRing
import Vmb.Ffi.Replies

namespace Vmb.Ffi

open Vmb.Lib Vmb.Core Vmb.Sdk

/-! ## Reachable states -/

/-- The states of the adapter, whatever is called on it, whatever the SDK answers and whatever frames
it completes. -/
inductive Reachable : FfiState → Prop
  | new : Reachable .new
  | call {s : FfiState} {τ : Type} (api : VmbApi τ) (t : τ) (c : PortCall) (h : Reachable s) :
      Reachable (vmbFfiRuntime api (s, t) c).2.1
  | completed {s : FfiState} (c : Completion) (h : Reachable s) :
      Reachable (s.fill c.slot c.filled)

theorem Reachable.contextsOk {s : FfiState} (h : Reachable s) : ContextsOk s := by
  induction h with
  | new => exact contextsOk_new
  | call api t c h ih => exact (vmbFfiRuntime_sdkCalls api _ c).contextsOk ih
  | completed c h ih => exact ih.fill c.slot c.filled

/-! ## Unchanged states -/

/-- `STARTED` and the tables are as before, with the closure in every context. -/
structure Unchanged (s s' : FfiState) : Prop where
  started : s'.started = s.started
  cameras : s'.cameras = s.cameras
  frames : s'.frames = s.frames
  frameCallbacks : s'.frameCallbacks = s.frameCallbacks
  discoveryCallbacks : s'.discoveryCallbacks = s.discoveryCallbacks
  discoveryRegs : s'.discoveryRegs = s.discoveryRegs

theorem Unchanged.refl (s : FfiState) : Unchanged s s := ⟨rfl, rfl, rfl, rfl, rfl, rfl⟩

/-- After an unchanged call a completion does what it would have done before it. -/
theorem Unchanged.complete_eq {s s' : FfiState} (h : Unchanged s s') (hs : ContextsOk s)
    (hs' : ContextsOk s') (c : Completion) : complete s' c = complete s c := by
  rcases hbox : s.frames.lookup c.slot with - | box
  · have hbox' : s'.frames.lookup c.slot = none := by
      rw [h.frames]
      exact hbox
    unfold complete
    rw [hbox, hbox']
  · have hbox' : s'.frames.lookup c.slot = some box := by
      rw [h.frames]
      exact hbox
    rw [Ffi.complete_eq hs hbox, Ffi.complete_eq hs' hbox']

/-- The call is a `queue_frame` that reaches the SDK with another closure than the one its context
has. -/
def Swaps (s : FfiState) : PortCall → Prop
  | .queueFrame h slot cb => ∃ raw f box, s.cameras.lookup h = some raw ∧
      s.frameCallbacks.lookup cb = some f ∧ s.frames.lookup slot = some box ∧
      box.val.callback ≠ some f
  | _ => False

/-- A `queue_frame` that does not reach the SDK swaps nothing. -/
theorem Refuses.not_swaps {s : FfiState} {c : PortCall} (h : Refuses s c) : ¬ Swaps s c := by
  cases c with
  | queueFrame h' slot cb =>
      rintro ⟨raw, f, box, hraw, hcb, hslot, -⟩
      rcases h with hnone | hnone | hnone
      · rw [hraw] at hnone
        cases hnone
      · rw [hcb] at hnone
        cases hnone
      · rw [hslot] at hnone
        cases hnone
  | _ => exact id

/-- A table with a value put back is the same table exactly when the value is the old one. -/
theorem insert_eq_self_iff {K V : Type} [DecidableEq K] {m : Finmap fun _ : K => V} {k : K} {v w : V}
    (h : m.lookup k = some v) : m.insert k w = m ↔ w = v := by
  constructor
  · intro heq
    have hlookup : (m.insert k w).lookup k = some v := by
      rw [heq]
      exact h
    rw [Finmap.lookup_insert] at hlookup
    exact Option.some.inj hlookup
  · rintro rfl
    refine Finmap.ext_lookup fun k' => ?_
    rcases eq_or_ne k' k with rfl | hne
    · rw [Finmap.lookup_insert, h]
    · exact Finmap.lookup_insert_of_ne m hne

/-- Queueing leaves a sound context as it was exactly when it had the closure already. -/
theorem queuedBox_eq_iff {box : Box TrampolineContext} (h : box.val.frame.context0 = box.addr)
    (f : FrameCallback) : queuedBox box f = box ↔ box.val.callback = some f := by
  obtain ⟨addr, ⟨frame, buffer, callback⟩⟩ := box
  obtain rfl : frame.context0 = addr := h
  constructor
  · intro heq
    exact (congrArg (fun b => b.val.callback) heq).symm
  · intro hf
    obtain rfl : callback = some f := hf
    rfl

/-! ## Failed calls -/

variable {τ : Type}

/-- A failed `startup` leaves the flag as it was. -/
theorem startup_failed (api : VmbApi τ) (s : FfiState × τ) {e : VmbError}
    (h : (vmbFfiRuntime api s .startup).1 = .error e) :
    (vmbFfiRuntime api s .startup).2.1 = s.1 := by
  rw [(vmbFfiRuntime_startup api s).1] at h ⊢
  by_cases hstarted : s.1.started = true
  · rw [if_pos hstarted]
  · rw [if_neg hstarted] at h ⊢
    have hcheck : check (api s.2 .vmbStartup).1 = .error e := h
    have hfalse : s.1.started = false := Bool.eq_false_iff.mpr hstarted
    simp [hcheck, ← hfalse]

/-- A `queue_frame` that reaches the SDK changes the closure of its context. -/
theorem queued_unchanged_iff {s : FfiState} (hok : ContextsOk s) {h : CameraHandle}
    {slot : FrameSlotId} {cb : FrameCallbackId} {raw : VmbHandle} {f : FrameCallback}
    {box : Box TrampolineContext} (hraw : s.cameras.lookup h = some raw)
    (hcb : s.frameCallbacks.lookup cb = some f) (hslot : s.frames.lookup slot = some box) :
    Unchanged s { s with frames := s.frames.insert slot (queuedBox box f) } ↔
      ¬ Swaps s (.queueFrame h slot cb) := by
  have hframes : Unchanged s { s with frames := s.frames.insert slot (queuedBox box f) } ↔
      s.frames.insert slot (queuedBox box f) = s.frames :=
    ⟨fun h => h.frames, fun h => ⟨rfl, rfl, h, rfl, rfl, rfl⟩⟩
  rw [hframes, insert_eq_self_iff hslot, queuedBox_eq_iff (hok.self slot box hslot)]
  constructor
  · rintro hsame ⟨raw', f', box', -, hcb', hslot', hne⟩
    rw [hcb] at hcb'
    rw [hslot] at hslot'
    cases hcb'
    cases hslot'
    exact hne hsame
  · intro hnot
    by_contra hne
    exact hnot ⟨raw, f, box, hraw, hcb, hslot, hne⟩

/-- Every other failed call changes at most one context. -/
theorem Step.unchanged_iff {s s' : FfiState} {c : PortCall} {evs : List (Event VmbC)} {r : c.Resp}
    (h : Step s c evs r s') (hok : ContextsOk s) (hc : c ≠ .startup) {e : VmbError}
    (hfail : Fails e c r) : Unchanged s s' ↔ ¬ Swaps s c := by
  cases h with
  | queued h slot cb raw f box rc hraw hcb hslot =>
      -- The closure is stored before the SDK is asked, and stays whatever the SDK answers.
      exact queued_unchanged_iff hok hraw hcb hslot
  | lifecycle c evs r b hc' hevs =>
      rcases hc' with rfl | rfl
      · exact absurd rfl hc
      · exact absurd hfail id
  | quiet c evs r hr hevs =>
      refine iff_of_true (.refl s) ?_
      cases c with
      | queueFrame h slot cb => exact absurd hr id
      | _ => exact id
  | refused c r hc' hr => exact iff_of_true (.refl s) hc'.not_swaps
  | openFailed id cId rc raw hc' hrc => exact iff_of_true (.refl s) fun h => h
  | announceFailed h size raw rc hraw hrc =>
      exact iff_of_true ⟨rfl, rfl, rfl, rfl, rfl, rfl⟩ id
  | registerFailed cb f rc hcb hrc => exact iff_of_true ⟨rfl, rfl, rfl, rfl, rfl, rfl⟩ id
  | opened id cId raw hc' hid => cases hfail
  | openPanicked id cId raw m hc' hid => cases hfail
  | announced h size raw hraw => cases hfail
  | registered cb f hcb => cases hfail
  | _ => exact absurd hfail id

/-- **A failed call leaves the adapter unchanged**, and every later completion as it would have been,
**exactly when it does not swap a closure.** -/
theorem failed_unchanged_iff {s : FfiState} (hs : Reachable s) (api : VmbApi τ) (t : τ)
    {c : PortCall} {e : VmbError} (hfail : Fails e c (vmbFfiRuntime api (s, t) c).1) :
    (Unchanged s (vmbFfiRuntime api (s, t) c).2.1 ∧
        ∀ x, complete (vmbFfiRuntime api (s, t) c).2.1 x = complete s x) ↔ ¬ Swaps s c := by
  have hs' : Reachable (vmbFfiRuntime api (s, t) c).2.1 := .call api t c hs
  have hsame : Unchanged s (vmbFfiRuntime api (s, t) c).2.1 ↔ ¬ Swaps s c := by
    by_cases hc : c = .startup
    · subst hc
      have hstartup : (vmbFfiRuntime api (s, t) .startup).2.1 = s := startup_failed api (s, t) hfail
      rw [hstartup]
      exact iff_of_true (.refl s) id
    · exact (vmbFfiRuntime_sdkCalls api (s, t) c).unchanged_iff hs.contextsOk hc hfail
  rw [← hsame]
  exact and_iff_left_of_imp fun h x => h.complete_eq hs.contextsOk hs'.contextsOk x

/-- An SDK that refuses to queue a frame it has queued already. -/
def alreadyQueuedApi : VmbApi Nat := fun n c =>
  match c with
  | .vmbCaptureFrameQueue _ _ _ => ((-33 : Int32), n)
  | c => mockApi n c

/-- A second closure is installed beside a running capture. -/
def secondClosure : FfiState :=
  (vmbFfiRuntime mockApi (oneFrame.state, 2) (.installFrameCallback ⟨8⟩)).2.1

/-- The running frame is queued again, for the second closure. -/
def queueAgain : PortCall := .queueFrame ⟨⟨1, nonZero_one⟩⟩ ⟨3⟩ ⟨4⟩

theorem oneFrame_reachable : Reachable oneFrame.state :=
  Prog.run_invariant (vmbFfiRuntime mockApi) (fun s => Reachable s.1)
    (fun s c hs => .call mockApi s.2 c hs) (runOps captureOne .empty) _ .new

theorem secondClosure_reachable : Reachable secondClosure :=
  .call mockApi 2 (.installFrameCallback ⟨8⟩) oneFrame_reachable

theorem queueAgain_fails : Fails (sdkError (-33)) queueAgain
    (vmbFfiRuntime alreadyQueuedApi (secondClosure, 2) queueAgain).1 := by
  rfl

theorem failed_unchanged_iff_queueAgain :
    (Unchanged secondClosure (vmbFfiRuntime alreadyQueuedApi (secondClosure, 2) queueAgain).2.1 ∧
        ∀ x, complete (vmbFfiRuntime alreadyQueuedApi (secondClosure, 2) queueAgain).2.1 x =
          complete secondClosure x) ↔ ¬ Swaps secondClosure queueAgain :=
  failed_unchanged_iff secondClosure_reachable alreadyQueuedApi 2 queueAgain_fails

/-- The SDK refuses the frame, and the frame it still has is completed for the second closure. -/
theorem not_unchanged_queueAgain :
    Reachable secondClosure ∧ Fails (sdkError (-33)) queueAgain
        (vmbFfiRuntime alreadyQueuedApi (secondClosure, 2) queueAgain).1 ∧
      (secondClosure.frames.lookup ⟨3⟩).bind (fun box => box.val.callback) = some ⟨7⟩ ∧
      ((vmbFfiRuntime alreadyQueuedApi (secondClosure, 2) queueAgain).2.1.frames.lookup ⟨3⟩).bind
        (fun box => box.val.callback) = some ⟨8⟩ ∧
      ¬ Unchanged secondClosure
        (vmbFfiRuntime alreadyQueuedApi (secondClosure, 2) queueAgain).2.1 := by
  have hbefore : (secondClosure.frames.lookup ⟨3⟩).bind (fun box => box.val.callback) =
      some ⟨7⟩ := by decide +kernel
  have hafter : ((vmbFfiRuntime alreadyQueuedApi (secondClosure, 2) queueAgain).2.1.frames.lookup
      ⟨3⟩).bind (fun box => box.val.callback) = some ⟨8⟩ := by decide +kernel
  refine ⟨secondClosure_reachable, queueAgain_fails, hbefore, hafter, fun h => ?_⟩
  rw [h.frames, hbefore] at hafter
  exact absurd hafter (by decide)

end Vmb.Ffi

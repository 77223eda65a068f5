/-
# Vmb.Ffi.CaptureRing -- the frames of a running capture

A running capture is a ring: the SDK takes a frame from its queue, fills it and calls the
trampoline, and the trampoline queues it again ("so the SDK keeps delivering"). A frame that is not
queued again is lost until the capture is stopped. `Ring.conserved_iff` says exactly when none is:
the closure and the re-queue share one `catch_unwind`, so a closure that panics on a completed frame
takes the frame out of the ring.
-/
import Vmb.Ffi.Completion
import Mathlib.Data.List.Perm.Basic

namespace Vmb.Ffi

open Vmb.Lib Vmb.Core Vmb.Sdk

/-! ## Rings -/

/-- The adapter, and the queue of the SDK. -/
structure Ring where
  state : FfiState
  queued : List Nat

/-- The call queues a frame. -/
def Upcall.queues : Upcall → Bool
  | .vmbCaptureFrameQueue _ _ _ => true
  | _ => false

/-- What the trampoline finds outside the adapter during a completion, over the queue of the SDK:
`VmbCaptureFrameQueue` keeps succeeding. -/
def ringMachine (c : Completion) : Machine Upcalls (List Nat) := fun queued call =>
  match call with
  | .systemTime => (c.hostTsNs, queued)
  | .invoke _ _ => (c.outcome, queued)
  | .vmbCaptureFrameQueue _ ptr _ => ((0 : Int32), queued ++ [ptr])
  | .dangling _ => ((), queued)

namespace Ring

/-- The queue after the SDK has taken the frame of the completion. -/
def taken (R : Ring) (c : Completion) : List Nat :=
  match R.state.frames.lookup c.slot with
  | none => R.queued
  | some box => R.queued.erase box.addr

/-- The SDK takes a frame, fills it and calls the trampoline. -/
noncomputable def complete (R : Ring) (c : Completion) : Ring where
  state := R.state.fill c.slot c.filled
  queued := ((Ffi.complete R.state c).run (ringMachine c) (R.taken c)).2

/-- How often the trampoline queues a frame during a completion. -/
noncomputable def requeues (R : Ring) (c : Completion) : Nat :=
  ((Ffi.complete R.state c).history (ringMachine c) (R.taken c)).countP fun x => x.2.call.queues

/-- A capture with `n` announced frames, all of them queued, and each with a closure. -/
structure Full (R : Ring) (n : Nat) : Prop where
  contexts : ContextsOk R.state
  length : R.queued.length = n
  nodup : R.queued.Nodup
  live : ∀ ptr ∈ R.queued, ∃ slot box f, R.state.frames.lookup slot = some box ∧
    box.addr = ptr ∧ box.val.callback = some f

/-- The frame of the completion is in the queue. -/
def Offers (R : Ring) (c : Completion) : Prop :=
  ∃ box, R.state.frames.lookup c.slot = some box ∧ box.addr ∈ R.queued

/-- Each completion of the run is of a frame that is in the queue when the SDK takes it. -/
def Takes : Ring → List Completion → Prop
  | _, [] => True
  | R, c :: cs => R.Offers c ∧ (R.complete c).Takes cs

/-- After every trampoline call of the run its frame has been queued exactly once, and the queue
holds all of `frames` again. -/
def Conserved (frames : List Nat) : Ring → List Completion → Prop
  | _, [] => True
  | R, c :: cs => R.requeues c = 1 ∧ (R.complete c).queued.Perm frames ∧
      (R.complete c).Conserved frames cs

end Ring

/-- The closure returns on the frame, if it gets it. -/
def Completion.Returns (c : Completion) : Prop :=
  c.filled.receiveStatus = 0 → c.outcome = .returned ()

/-! ## One completion -/

section Step

variable {R : Ring} {c : Completion} {box : Box TrampolineContext} {q : List Nat}

theorem run_requeue (h : VmbHandle) (ptr : Nat) :
    ((requeue h ptr).run (ringMachine c) q).2 = q ++ [ptr] := rfl

theorem requeues_requeue (h : VmbHandle) (ptr : Nat) :
    ((requeue h ptr).history (ringMachine c) q).countP (fun x => x.2.call.queues) = 1 := rfl

/-- A frame whose closure returns is queued again, once. -/
theorem deliver_returned (h : VmbHandle) (ptr : Nat) (callback : Option FrameCallback)
    (frame : Frame) (hout : c.outcome = .returned ()) :
    ((deliver h ptr callback frame).run (ringMachine c) q).2 = q ++ [ptr] ∧
      ((deliver h ptr callback frame).history (ringMachine c) q).countP
        (fun x => x.2.call.queues) = 1 := by
  rcases callback with - | f
  · exact ⟨run_requeue h ptr, requeues_requeue h ptr⟩
  · have hinvoke : ringMachine c q (.invoke f frame) = (.returned (), q) := by
      rw [← hout]
      rfl
    simp only [deliver, Prog.run_call, Prog.history, hinvoke]
    exact ⟨rfl, rfl⟩

/-- A frame whose closure panics is not. -/
theorem deliver_panicked (h : VmbHandle) (ptr : Nat) (f : FrameCallback) (frame : Frame)
    {m : String} (hout : c.outcome = .panicked m) :
    ((deliver h ptr (some f) frame).run (ringMachine c) q).2 = q ∧
      ((deliver h ptr (some f) frame).history (ringMachine c) q).countP
        (fun x => x.2.call.queues) = 0 := by
  have hinvoke : ringMachine c q (.invoke f frame) = (.panicked m, q) := by
    rw [← hout]
    rfl
  simp only [deliver, Prog.run_call, Prog.history, hinvoke]
  exact ⟨rfl, rfl⟩

theorem Ring.taken_eq (hbox : R.state.frames.lookup c.slot = some box) :
    R.taken c = R.queued.erase box.addr := by
  unfold Ring.taken
  rw [hbox]

/-- **A completion whose closure returns puts its frame back**, at the end of the queue. -/
theorem Ring.complete_of_returns (h : ContextsOk R.state)
    (hbox : R.state.frames.lookup c.slot = some box) (hc : c.Returns) :
    (R.complete c).queued = R.queued.erase box.addr ++ [box.addr] ∧ R.requeues c = 1 := by
  unfold Ring.complete Ring.requeues
  rw [Ring.taken_eq hbox, complete_eq h hbox]
  by_cases hstatus : c.filled.receiveStatus = 0
  · simp only [hstatus, if_true]
    exact deliver_returned _ _ _ _ (hc hstatus)
  · simp only [hstatus, if_false]
    exact ⟨run_requeue _ _, requeues_requeue _ _⟩

/-- **A completion whose closure panics loses its frame.** -/
theorem Ring.complete_of_panics (h : ContextsOk R.state)
    (hbox : R.state.frames.lookup c.slot = some box) {f : FrameCallback}
    (hf : box.val.callback = some f) (hc : ¬ c.Returns) :
    (R.complete c).queued = R.queued.erase box.addr ∧ R.requeues c = 0 := by
  simp only [Completion.Returns, Classical.not_imp] at hc
  obtain ⟨hstatus, hout⟩ := hc
  obtain ⟨m, hm⟩ : ∃ m, c.outcome = .panicked m := by
    rcases hc : c.outcome with ⟨⟨⟩⟩ | m
    · exact absurd hc hout
    · exact ⟨m, rfl⟩
  unfold Ring.complete Ring.requeues
  rw [Ring.taken_eq hbox, complete_eq h hbox]
  simp only [hstatus, if_true, hf]
  exact deliver_panicked _ _ _ _ hm

/-- The ring stays full exactly when the closure returns. -/
theorem Ring.Full.step {n : Nat} (h : R.Full n) (hc : R.Offers c) (hret : c.Returns) :
    R.requeues c = 1 ∧ (R.complete c).queued.Perm R.queued ∧ (R.complete c).Full n := by
  obtain ⟨box, hbox, hmem⟩ := hc
  obtain ⟨hqueued, honce⟩ := Ring.complete_of_returns h.contexts hbox hret
  have hperm : (R.complete c).queued.Perm R.queued := by
    rw [hqueued]
    exact (List.perm_append_singleton _ _).trans (List.perm_cons_erase hmem).symm
  refine ⟨honce, hperm, h.contexts.fill _ _, ?_, ?_, fun ptr hptr => ?_⟩
  · rw [hperm.length_eq]
    exact h.length
  · exact hperm.nodup_iff.mpr h.nodup
  · obtain ⟨slot, box', f, hbox', rfl, hf⟩ := h.live ptr (hperm.mem_iff.mp hptr)
    rcases eq_or_ne slot c.slot with rfl | hne
    · refine ⟨c.slot, box'.fill c.filled, f, ?_, rfl, hf⟩
      show (R.state.fill c.slot c.filled).frames.lookup c.slot = _
      rw [FfiState.fill_eq hbox']
      exact Finmap.lookup_insert _
    · refine ⟨slot, box', f, ?_, rfl, hf⟩
      show (R.state.fill c.slot c.filled).frames.lookup slot = _
      rw [FfiState.fill_eq hbox]
      exact (Finmap.lookup_insert_of_ne _ hne).trans hbox'

/-- A frame that is not queued again is lost. -/
theorem Ring.Full.lost {n : Nat} (h : R.Full n) (hc : R.Offers c) (hret : ¬ c.Returns) :
    R.requeues c = 0 ∧ ¬ (R.complete c).queued.Perm R.queued := by
  obtain ⟨box, hbox, hmem⟩ := hc
  obtain ⟨slot, box', f, hbox', haddr, hf⟩ := h.live _ hmem
  obtain rfl := h.contexts.injective _ _ _ _ hbox' hbox haddr
  rw [hbox] at hbox'
  cases hbox'
  obtain ⟨hqueued, hzero⟩ := Ring.complete_of_panics h.contexts hbox hf hret
  refine ⟨hzero, fun hperm => ?_⟩
  have hlength := hperm.length_eq
  have hpos : 0 < R.queued.length := List.length_pos_of_mem hmem
  rw [hqueued, List.length_erase_of_mem hmem] at hlength
  omega

end Step

/-! ## Runs -/

/-- **The ring keeps all its frames exactly when no closure panics on a completed frame.** -/
theorem Ring.conserved_iff {R : Ring} {n : Nat} (h : R.Full n) (cs : List Completion)
    (ht : R.Takes cs) : R.Conserved R.queued cs ↔ ∀ c ∈ cs, c.Returns := by
  -- The frames of the start are named: the queue of a later ring is only a permutation of them.
  have key : ∀ (R : Ring) (frames : List Nat), R.Full n → R.queued.Perm frames → R.Takes cs →
      (R.Conserved frames cs ↔ ∀ c ∈ cs, c.Returns) := by
    clear h ht R
    induction cs with
    | nil => exact fun R frames _ _ _ => iff_of_true trivial fun c hc => absurd hc List.not_mem_nil
    | cons c cs ih =>
        intro R frames hfull hframes ⟨hoffers, htakes⟩
        rw [List.forall_mem_cons]
        by_cases hret : c.Returns
        · obtain ⟨honce, hperm, hfull'⟩ := hfull.step hoffers hret
          have hframes' := hperm.trans hframes
          have hrest := ih (R.complete c) frames hfull' hframes' htakes
          exact ⟨fun hcons => ⟨hret, hrest.mp hcons.2.2⟩,
            fun hall => ⟨honce, hframes', hrest.mpr hall.2⟩⟩
        · obtain ⟨hzero, -⟩ := hfull.lost hoffers hret
          refine iff_of_false (fun hcons => ?_) fun hall => hret hall.1
          have honce := hcons.1
          omega
  exact key R R.queued h (.refl _) ht

/-- A capture with one buffer. -/
def captureOne : List Op :=
  [⟨0, none, .openCamera "cam-a"⟩, ⟨0, none, .startCapture 1 ⟨7⟩⟩]

/-- The ring of a capture with one buffer, just started. -/
def oneFrame : Ring where
  state := ((runOps captureOne .empty).run (vmbFfiRuntime mockApi) (.new, 1)).2.1
  queued := [1025]

theorem contextsOk_run {α τ : Type} (api : VmbApi τ) (p : PortM α) (t : τ) :
    ContextsOk (p.run (vmbFfiRuntime api) (.new, t)).2.1 :=
  Prog.run_invariant (vmbFfiRuntime api) (fun s => ContextsOk s.1)
    (fun s c hs => (vmbFfiRuntime_sdkCalls api s c).contextsOk hs) p _ contextsOk_new

/-- The context of the one frame. -/
def oneBox : Box TrampolineContext where
  addr := 1025
  val :=
    { frame := { buffer := 1, bufferSize := 1024, context0 := 1025 }
      buffer := ⟨1, 1024⟩
      callback := some ⟨7⟩ }

theorem oneFrame_lookup : oneFrame.state.frames.lookup ⟨3⟩ = some oneBox := by decide +kernel

theorem oneFrame_full : oneFrame.Full 1 where
  contexts := contextsOk_run mockApi (runOps captureOne .empty) 1
  length := rfl
  nodup := by simp [oneFrame]
  live ptr hptr := by
    obtain rfl := List.mem_singleton.mp hptr
    exact ⟨⟨3⟩, oneBox, ⟨7⟩, oneFrame_lookup, rfl, rfl⟩

/-- The one frame is completed with the given status, and its closure ends so. -/
def completeOne (receiveStatus : Int32) (outcome : Exit Unit) : Completion where
  slot := ⟨3⟩
  cameraHandle := 1
  filled := ⟨receiveStatus, 1, 1, 0x01080001, 32, 32⟩
  byte := fun _ => 0
  hostTsNs := 0
  outcome := outcome

theorem oneFrame_takes (receiveStatus : Int32) (outcome : Exit Unit) :
    oneFrame.Takes [completeOne receiveStatus outcome] :=
  ⟨⟨oneBox, oneFrame_lookup, List.mem_singleton_self _⟩, trivial⟩

theorem Ring.conserved_iff_oneFrame :
    oneFrame.Conserved [1025] [completeOne 0 (.returned ())] ↔
      ∀ c ∈ [completeOne 0 (.returned ())], c.Returns :=
  Ring.conserved_iff oneFrame_full _ (oneFrame_takes 0 (.returned ()))

/-- A closure that panics on its first frame leaves a capture of one buffer without a frame. -/
theorem not_conserved_oneFrame :
    oneFrame.Full 1 ∧ oneFrame.Takes [completeOne 0 (.panicked "boom")] ∧
      (oneFrame.complete (completeOne 0 (.panicked "boom"))).queued = [] ∧
      ¬ oneFrame.Conserved [1025] [completeOne 0 (.panicked "boom")] := by
  have hpanics : ¬ (completeOne 0 (.panicked "boom")).Returns := by
    intro h
    cases h rfl
  obtain ⟨hqueued, hzero⟩ :=
    Ring.complete_of_panics oneFrame_full.contexts oneFrame_lookup rfl hpanics
  refine ⟨oneFrame_full, oneFrame_takes 0 _, hqueued, fun hcons => ?_⟩
  have honce := hcons.1
  omega

end Vmb.Ffi

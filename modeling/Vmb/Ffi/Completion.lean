/-
# Vmb.Ffi.Completion -- frames the SDK completes

A completion is one turn of the SDK on a frame it has been given: it writes the descriptor and calls
the frame trampoline. It reaches the adapter through the context behind the frame pointer, so the
contexts in `frames` have to be sound at all times: distinct allocations, none of them null, each
with a self-pointer in `context[0]` (`ContextsOk`). Every port call and every completion keeps them
so, and `complete_eq` says what the trampoline then does.
-/
import Vmb.Ffi.FrameTrampoline
import Vmb.Lib.Tracks

namespace Vmb.Ffi

open Vmb.Lib Vmb.Core Vmb.Sdk

/-! ## Sound contexts -/

/-- The contexts in `frames` are distinct allocations that know their own address. -/
structure ContextsOk (s : FfiState) : Prop extends FramesOk s where
  addr_ne : ∀ slot box, s.frames.lookup slot = some box → box.addr ≠ 0
  self : ∀ slot box, s.frames.lookup slot = some box → box.val.frame.context0 = box.addr

theorem contextsOk_new : ContextsOk .new where
  toFramesOk := framesOk_new
  addr_ne := by simp [FfiState.new]
  self := by simp [FfiState.new]

/-- A table whose contexts are all old ones, or sound new ones. -/
theorem ContextsOk.of_lookup {s s' : FfiState} (h : ContextsOk s) (hok : FramesOk s')
    (hlookup : ∀ slot box, s'.frames.lookup slot = some box →
      s.frames.lookup slot = some box ∨ box.addr ≠ 0 ∧ box.val.frame.context0 = box.addr) :
    ContextsOk s' where
  toFramesOk := hok
  addr_ne slot box hb := by
    rcases hlookup slot box hb with hb | ⟨hne, -⟩
    · exact h.addr_ne slot box hb
    · exact hne
  self slot box hb := by
    rcases hlookup slot box hb with hb | ⟨-, hself⟩
    · exact h.self slot box hb
    · exact hself

/-- **Every port call keeps the contexts sound.** -/
theorem Step.contextsOk {s s' : FfiState} {c : PortCall} {evs : List (Event VmbC)} {r : c.Resp}
    (h : Step s c evs r s') (hs : ContextsOk s) : ContextsOk s' := by
  have hok : FramesOk s' := h.framesOk hs.toFramesOk
  cases h with
  | announced h size raw hraw =>
      refine hs.of_lookup hok fun slot box hb => ?_
      rcases lookup_insert_eq_some.mp hb with ⟨-, rfl⟩ | ⟨-, hb⟩
      · refine Or.inr ⟨?_, rfl⟩
        rw [announcedBox_addr]
        omega
      · exact Or.inl hb
  | queued h slot cb raw f box rc hraw hcb hslot =>
      refine hs.of_lookup hok fun slot' box' hb => ?_
      rcases lookup_insert_eq_some.mp hb with ⟨-, rfl⟩ | ⟨-, hb⟩
      · exact Or.inr ⟨hs.addr_ne slot box hslot, rfl⟩
      · exact Or.inl hb
  | revoked h raw rc hraw =>
      refine hs.of_lookup hok fun slot box hb => ?_
      simp at hb
  | _ => exact hs.of_lookup hok fun slot box hb => Or.inl hb

/-- The live context at an address. -/
noncomputable def FfiState.contextAt (s : FfiState) (ptr : Nat) : Option TrampolineContext :=
  open Classical in
  if h : ∃ ctx slot, s.frames.lookup slot = some ⟨ptr, ctx⟩ then some h.choose else none

/-- An address leads to the context that is stored there. -/
theorem FramesOk.contextAt_eq {s : FfiState} (h : FramesOk s) {slot : FrameSlotId}
    {box : Box TrampolineContext} (hbox : s.frames.lookup slot = some box) :
    s.contextAt box.addr = some box.val := by
  have hex : ∃ ctx slot, s.frames.lookup slot = some ⟨box.addr, ctx⟩ := ⟨box.val, slot, hbox⟩
  unfold FfiState.contextAt
  rw [dif_pos hex]
  obtain ⟨slot', hslot'⟩ := hex.choose_spec
  obtain rfl := h.injective slot slot' box _ hbox hslot' rfl
  rw [hbox] at hslot'
  exact congrArg (Option.map Box.val) hslot'.symm

/-! ## Completions -/

/-- What the SDK writes into the descriptor of a frame it completes. -/
structure Filled where
  receiveStatus : Int32
  frameID : UInt64
  imageData : Nat
  pixelFormat : UInt32
  width : UInt32
  height : UInt32
  deriving DecidableEq

/-- The descriptor after the SDK has filled it. -/
def VmbFrame.fill (frame : VmbFrame) (w : Filled) : VmbFrame :=
  { frame with
    receiveStatus := w.receiveStatus
    frameID := w.frameID
    imageData := w.imageData
    pixelFormat := w.pixelFormat
    width := w.width
    height := w.height }

/-- The context after the SDK has filled its frame. -/
def Box.fill (b : Box TrampolineContext) (w : Filled) : Box TrampolineContext :=
  { b with val := { b.val with frame := b.val.frame.fill w } }

@[simp] theorem Box.fill_addr (b : Box TrampolineContext) (w : Filled) : (b.fill w).addr = b.addr := rfl

@[simp] theorem Box.fill_callback (b : Box TrampolineContext) (w : Filled) :
    (b.fill w).val.callback = b.val.callback := rfl

/-- The SDK fills the frame of a slot. -/
def FfiState.fill (s : FfiState) (slot : FrameSlotId) (w : Filled) : FfiState :=
  match s.frames.lookup slot with
  | none => s
  | some box => { s with frames := s.frames.insert slot (box.fill w) }

/-- One completion: the frame, the camera it is completed for, what the SDK writes, the pixels, the
time, and what the closure does if it is invoked. -/
structure Completion where
  slot : FrameSlotId
  cameraHandle : VmbHandle
  filled : Filled
  byte : Nat → UInt8
  hostTsNs : UInt64
  outcome : Exit Unit

/-- The trampoline call of a completion. -/
noncomputable def complete (s : FfiState) (c : Completion) : Prog Upcalls Unit :=
  match s.frames.lookup c.slot with
  | none => pure ()
  | some box =>
    frameCallbackTrampoline ⟨(s.fill c.slot c.filled).contextAt, c.byte⟩ c.cameraHandle box.addr

theorem FfiState.fill_eq {s : FfiState} {slot : FrameSlotId} {box : Box TrampolineContext}
    (h : s.frames.lookup slot = some box) (w : Filled) :
    s.fill slot w = { s with frames := s.frames.insert slot (box.fill w) } := by
  unfold fill
  rw [h]

/-- A filled frame is a frame with its old address and closure. -/
theorem FfiState.lookup_fill {s : FfiState} {slot slot' : FrameSlotId} {w : Filled}
    {box' : Box TrampolineContext} (h : (s.fill slot w).frames.lookup slot' = some box') :
    ∃ box, s.frames.lookup slot' = some box ∧ box'.addr = box.addr ∧
      box'.val.callback = box.val.callback ∧
      box'.val.frame.context0 = box.val.frame.context0 := by
  unfold fill at h
  rcases hslot : s.frames.lookup slot with - | box <;> rw [hslot] at h
  · exact ⟨box', h, rfl, rfl, rfl⟩
  · rcases lookup_insert_eq_some.mp h with ⟨rfl, rfl⟩ | ⟨-, h⟩
    · exact ⟨box, hslot, rfl, rfl, rfl⟩
    · exact ⟨box', h, rfl, rfl, rfl⟩

theorem FfiState.fill_heap (s : FfiState) (slot : FrameSlotId) (w : Filled) :
    (s.fill slot w).heap = s.heap := by
  unfold fill
  split <;> rfl

/-- **Every completion keeps the contexts sound.** -/
theorem ContextsOk.fill {s : FfiState} (h : ContextsOk s) (slot : FrameSlotId) (w : Filled) :
    ContextsOk (s.fill slot w) where
  toFramesOk := by
    have hbrk : s.heap.brk ≤ (s.fill slot w).heap.brk := by rw [s.fill_heap]
    refine h.toFramesOk.of_lookup hbrk fun slot' box' hb => ?_
    obtain ⟨box, hb, haddr, -⟩ := FfiState.lookup_fill hb
    exact ⟨box, hb, haddr⟩
  addr_ne slot' box' hb := by
    obtain ⟨box, hb, haddr, -⟩ := FfiState.lookup_fill hb
    rw [haddr]
    exact h.addr_ne slot' box hb
  self slot' box' hb := by
    obtain ⟨box, hb, haddr, -, hself⟩ := FfiState.lookup_fill hb
    rw [haddr, hself]
    exact h.self slot' box hb

/-- The frame a closure sees. -/
def frameSeen (c : Completion) (box : Box TrampolineContext) (hostTsNs : UInt64) : Frame where
  data :=
    if c.filled.imageData = 0 ∨ box.val.frame.bufferSize.toNat = 0 then []
    else (List.range box.val.frame.bufferSize.toNat).map fun i => c.byte (c.filled.imageData + i)
  width := c.filled.width
  height := c.filled.height
  pixelFormat := .fromRaw c.filled.pixelFormat
  timestampNs := hostTsNs
  frameId := c.filled.frameID

/-- **What the trampoline does with a completed frame.** -/
theorem complete_eq {s : FfiState} (h : ContextsOk s) {c : Completion}
    {box : Box TrampolineContext} (hbox : s.frames.lookup c.slot = some box) :
    complete s c =
      if c.filled.receiveStatus = 0 then
        Prog.call (S := Upcalls) .systemTime fun hostTsNs =>
          deliver c.cameraHandle box.addr box.val.callback (frameSeen c box hostTsNs)
      else requeue c.cameraHandle box.addr := by
  have hfilled : (s.fill c.slot c.filled).frames.lookup c.slot = some (box.fill c.filled) := by
    rw [FfiState.fill_eq hbox]
    exact Finmap.lookup_insert _
  have hctx : (s.fill c.slot c.filled).contextAt box.addr = some (box.fill c.filled).val :=
    (h.fill c.slot c.filled).contextAt_eq hfilled
  have hself : (box.fill c.filled).val.frame.context0 = box.addr := h.self c.slot box hbox
  unfold complete
  rw [hbox]
  exact frameCallbackTrampoline_eq (h.addr_ne c.slot box hbox)
    (show Memory.context ⟨(s.fill c.slot c.filled).contextAt, c.byte⟩ box.addr = _ from hctx) hself
    c.cameraHandle

end Vmb.Ffi

/-
# Vmb.Ffi.State -- internal bookkeeping of `VmbFfiRuntime`

The tables that correlate the opaque identifiers of the port with SDK handles and heap objects, the
identifier counter, and the heap. A heap address names one allocation for ever: the allocator never
hands an address out twice, so a pointer into freed memory can be told from every live one.
-/
import Mathlib.Data.Finmap
import Vmb.Core.Port
import Vmb.Sdk.Api

namespace Vmb.Ffi

open Vmb.Core Vmb.Sdk

/-! ## Heap objects -/

/-- A `Box<T>`. -/
structure Box (α : Type) where
  addr : Nat
  val : α
  deriving DecidableEq

/-- The fields of `VmbFrame_t` the adapter reads or writes. -/
structure VmbFrame where
  buffer : Nat := 0
  bufferSize : UInt32 := 0
  context0 : Nat := 0
  receiveStatus : Int32 := 0
  frameID : UInt64 := 0
  imageData : Nat := 0
  pixelFormat : UInt32 := 0
  width : UInt32 := 0
  height : UInt32 := 0
  deriving DecidableEq

/-- Per-announced-frame trampoline context. `callback` is `none` while the context still has the
no-op closure of announce time. -/
structure TrampolineContext where
  frame : VmbFrame
  buffer : Box Nat
  callback : Option FrameCallback
  deriving DecidableEq

/-- Per-registration trampoline context for camera discovery. -/
structure DiscoveryTrampolineCtx where
  callback : DiscoveryCallback
  deriving DecidableEq

/-- Per-registration state: the context given to the SDK and the feature name. -/
structure DiscoveryRegState where
  ctxPtr : Nat
  feature : Vmb.Lib.CString
  deriving DecidableEq

/-- The part of the heap the adapter manages through raw pointers: the next address, the contexts
behind a `Box::into_raw` pointer, and the pointers given away and reclaimed so far. -/
structure Heap where
  brk : Nat
  contexts : Finmap fun _ : Nat => DiscoveryTrampolineCtx
  given : List Nat
  reclaimed : List Nat

/-! ## The state -/

/-- `FfiState`, with the process-global flag `STARTED`. `counter` counts the `fetch_add`s from 1; the
atomic holds it modulo `2^64`. -/
structure FfiState where
  started : Bool
  cameras : Finmap fun _ : CameraHandle => VmbHandle
  frames : Finmap fun _ : FrameSlotId => Box TrampolineContext
  frameCallbacks : Finmap fun _ : FrameCallbackId => FrameCallback
  discoveryCallbacks : Finmap fun _ : DiscoveryCallbackId => DiscoveryCallback
  discoveryRegs : Finmap fun _ : DiscoveryRegistrationHandle => DiscoveryRegState
  counter : Nat
  heap : Heap

namespace FfiState

/-- `FfiState::new`, before any startup. -/
def new : FfiState where
  started := false
  cameras := ∅
  frames := ∅
  frameCallbacks := ∅
  discoveryCallbacks := ∅
  discoveryRegs := ∅
  counter := 1
  heap := ⟨1, ∅, [], []⟩

/-- The value the counter holds. -/
def currentId (s : FfiState) : UInt64 := UInt64.ofNat s.counter

/-- `next_u64`: `counter.fetch_add(1)`, which wraps. -/
def nextU64 (s : FfiState) : UInt64 × FfiState :=
  (s.currentId, { s with counter := s.counter + 1 })

/-- `next_id`: a counter that has wrapped to zero panics. -/
def nextId (s : FfiState) : Exit NonZeroU64 × FfiState :=
  (if h : s.currentId ≠ 0 then .returned ⟨s.currentId, h⟩
    else .panicked "ID counter started at 1 and never wraps in practice",
    { s with counter := s.counter + 1 })

/-- A fresh allocation of `size` bytes. -/
def alloc (s : FfiState) (size : Nat) : Nat × FfiState :=
  (s.heap.brk, { s with heap := { s.heap with brk := s.heap.brk + max size 1 } })

/-- `Box::into_raw(Box::new(ctx))`. -/
def intoRaw (s : FfiState) (ctx : DiscoveryTrampolineCtx) : Nat × FfiState :=
  let (ptr, s) := s.alloc 1
  (ptr, { s with heap := { s.heap with
    contexts := s.heap.contexts.insert ptr ctx
    given := s.heap.given ++ [ptr] } })

/-- `drop(Box::from_raw(ptr))`. -/
def fromRaw (s : FfiState) (ptr : Nat) : FfiState :=
  { s with heap := { s.heap with
    contexts := s.heap.contexts.erase ptr
    reclaimed := s.heap.reclaimed ++ [ptr] } }

end FfiState

/-! ## Trampoline contexts -/

namespace TrampolineContext

/-- `TrampolineContext::new`, boxed: the backing buffer and the context are two allocations. -/
def new (s : FfiState) (payloadBytes : UInt32) : Box TrampolineContext × FfiState :=
  let (bufferPtr, s) := s.alloc payloadBytes.toNat
  let (addr, s) := s.alloc 1
  (⟨addr, { frame := { buffer := bufferPtr, bufferSize := payloadBytes }
            buffer := ⟨bufferPtr, payloadBytes.toNat⟩
            callback := none }⟩, s)

end TrampolineContext

/-- `vmb_frame_mut_ptr`: patches `context[0]` to the box and returns the address of the frame, which
is the first field of the box. -/
def Box.vmbFrameMutPtr (b : Box TrampolineContext) : Nat × Box TrampolineContext :=
  (b.addr, { b with val := { b.val with frame := { b.val.frame with context0 := b.addr } } })

/-- `set_callback`. -/
def Box.setCallback (b : Box TrampolineContext) (callback : FrameCallback) : Box TrampolineContext :=
  { b with val := { b.val with callback := some callback } }

@[simp] theorem Box.setCallback_addr (b : Box TrampolineContext) (f : FrameCallback) :
    (b.setCallback f).addr = b.addr := rfl

@[simp] theorem Box.vmbFrameMutPtr_fst (b : Box TrampolineContext) :
    b.vmbFrameMutPtr.1 = b.addr := rfl

@[simp] theorem Box.vmbFrameMutPtr_addr (b : Box TrampolineContext) :
    b.vmbFrameMutPtr.2.addr = b.addr := rfl

end Vmb.Ffi

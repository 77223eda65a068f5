/-
# Vmb.Ffi.FrameTrampoline -- the frame trampoline

`frame_callback_trampoline` is called by the SDK on its own thread with a frame it has filled. It
finds the context through the self-pointer in `context[0]`, hands a view of the frame to the closure
of the context, and queues the frame again. Both happen under one `catch_unwind`: a closure that
panics unwinds past the re-queue.

What leaves the adapter (the clock, the closure, the SDK) is a call of the signature `Upcalls`. A
pointer that leads to no live context is a use after free; the model reports it as the call
`dangling`.
-/
import Vmb.Ffi.FrameLiveness

namespace Vmb.Ffi

open Vmb.Lib Vmb.Core Vmb.Sdk

/-! ## Calls and memory -/

/-- A call the trampoline makes. -/
inductive Upcall where
  /-- `SystemTime::now()`, in nanoseconds since the epoch. -/
  | systemTime
  | invoke (callback : FrameCallback) (frame : Frame)
  | vmbCaptureFrameQueue (handle : VmbHandle) (frame : Nat) (callback : Trampoline)
  | dangling (ptr : Nat)
  deriving DecidableEq

@[reducible] def Upcall.Resp : Upcall → Type
  | .systemTime => UInt64
  | .invoke _ _ => Exit Unit
  | .vmbCaptureFrameQueue _ _ _ => Int32
  | .dangling _ => Unit

@[reducible] def Upcalls : Signature := ⟨Upcall, Upcall.Resp⟩

/-- Make a call. -/
def upcall (c : Upcall) : Prog Upcalls c.Resp := Prog.call (S := Upcalls) c Prog.done

@[simp] theorem upcall_bind {α : Type} (c : Upcall) (f : c.Resp → Prog Upcalls α) :
    (upcall c >>= f) = Prog.call (S := Upcalls) c f := rfl

/-- The memory the trampoline reads: the live contexts by address, and the pixels. A frame descriptor
is the first field of its context, so they share an address. -/
structure Memory where
  context : Nat → Option TrampolineContext
  byte : Nat → UInt8

/-- `slice::from_raw_parts(ptr, len)`. -/
def Memory.slice (mem : Memory) (ptr len : Nat) : List UInt8 :=
  (List.range len).map fun i => mem.byte (ptr + i)

@[simp] theorem Memory.length_slice (mem : Memory) (ptr len : Nat) :
    (mem.slice ptr len).length = len := by
  simp [Memory.slice]

/-! ## The trampoline -/

/-- `data_slice`. -/
def dataSlice (mem : Memory) (frame : VmbFrame) : List UInt8 :=
  if frame.imageData = 0 ∨ frame.bufferSize.toNat = 0 then []
  else mem.slice frame.imageData frame.bufferSize.toNat

/-- `rust_frame`. -/
def rustFrame (mem : Memory) (frame : VmbFrame) (hostTsNs : UInt64) : Frame where
  data := dataSlice mem frame
  width := frame.width
  height := frame.height
  pixelFormat := .fromRaw frame.pixelFormat
  timestampNs := hostTsNs
  frameId := frame.frameID

/-- `FrameCallback::invoke`. The closure of announce time does nothing. -/
def invoke (callback : Option FrameCallback) (frame : Frame) : Prog Upcalls (Exit Unit) :=
  match callback with
  | none => pure (.returned ())
  | some f => upcall (.invoke f frame)

/-- Only completed frames are dispatched: `VmbFrameStatusComplete = 0`. -/
def dispatchFrame (mem : Memory) (frame : VmbFrame) (ctx : TrampolineContext) :
    Prog Upcalls (Exit Unit) :=
  if frame.receiveStatus = 0 then do
    let hostTsNs ← upcall .systemTime
    invoke ctx.callback (rustFrame mem frame hostTsNs)
  else
    pure (.returned ())

/-- The closure `frame_callback_trampoline` runs under `catch_unwind`. -/
def frameCallbackBody (mem : Memory) (cameraHandle : VmbHandle) (framePtr : Nat) :
    Prog Upcalls (Exit Unit) :=
  if framePtr = 0 then
    pure (.returned ())
  else
    match mem.context framePtr with
    | none => do
      upcall (.dangling framePtr)
      pure (.returned ())
    | some owner =>
      let frame := owner.frame
      if frame.context0 = 0 then
        pure (.returned ())
      else
        match mem.context frame.context0 with
        | none => do
          upcall (.dangling frame.context0)
          pure (.returned ())
        | some ctx => do
          match ← dispatchFrame mem frame ctx with
          -- the closure unwinds past the re-queue
          | .panicked m => pure (.panicked m)
          | .returned () => do
            let _ ← upcall (.vmbCaptureFrameQueue cameraHandle framePtr .frameCallbackTrampoline)
            pure (.returned ())

/-- `frame_callback_trampoline`: a panic ends at the boundary. -/
def frameCallbackTrampoline (mem : Memory) (cameraHandle : VmbHandle) (framePtr : Nat) :
    Prog Upcalls Unit := do
  let _ ← frameCallbackBody mem cameraHandle framePtr
  pure ()

/-- The SDK gets the frame back. -/
def requeue (cameraHandle : VmbHandle) (framePtr : Nat) : Prog Upcalls Unit :=
  Prog.call (S := Upcalls)
    (.vmbCaptureFrameQueue cameraHandle framePtr .frameCallbackTrampoline) fun _ => .done ()

/-- A frame is handed to the closure of its context, and queued again unless the closure panics. -/
def deliver (cameraHandle : VmbHandle) (framePtr : Nat) (callback : Option FrameCallback)
    (frame : Frame) : Prog Upcalls Unit :=
  match callback with
  | none => requeue cameraHandle framePtr
  | some f =>
    Prog.call (S := Upcalls) (.invoke f frame) fun r =>
      match r with
      | .panicked _ => .done ()
      | .returned () => requeue cameraHandle framePtr

/-- The trampoline on a frame whose self-pointer leads to its own live context. -/
theorem frameCallbackTrampoline_eq {mem : Memory} {framePtr : Nat} {ctx : TrampolineContext}
    (hne : framePtr ≠ 0) (hctx : mem.context framePtr = some ctx)
    (hself : ctx.frame.context0 = framePtr) (cameraHandle : VmbHandle) :
    frameCallbackTrampoline mem cameraHandle framePtr =
      if ctx.frame.receiveStatus = 0 then
        Prog.call (S := Upcalls) .systemTime fun hostTsNs =>
          deliver cameraHandle framePtr ctx.callback (rustFrame mem ctx.frame hostTsNs)
      else requeue cameraHandle framePtr := by
  have hne' : ctx.frame.context0 ≠ 0 := by
    rw [hself]
    exact hne
  have hctx' : mem.context ctx.frame.context0 = some ctx := by
    rw [hself]
    exact hctx
  -- the self-pointer leads back to the same context, so no pointer dangles
  unfold frameCallbackTrampoline frameCallbackBody dispatchFrame
  simp only [hne, if_false, hctx, hne', hctx']
  by_cases hstatus : ctx.frame.receiveStatus = 0
  · simp only [hstatus, if_true]
    refine congrArg (Prog.call (S := Upcalls) .systemTime) (funext fun hostTsNs => ?_)
    rcases ctx.callback with - | f
    · rfl
    · refine congrArg (Prog.call (S := Upcalls) _) (funext fun r => ?_)
      rcases r with ⟨⟨⟩⟩ | m
      · rfl
      · rfl
  · simp only [hstatus, if_false]
    rfl

end Vmb.Ffi

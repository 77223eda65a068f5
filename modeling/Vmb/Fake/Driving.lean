/-
# Vmb.Fake.Driving -- the callbacks of the fake, driven by the test

`emit_discovery` and `deliver_frame` stand in for the SDK threads of the production adapter: a test
calls them, and they run the user closures on its own thread. What a closure does is not modelled
but for how it ends. A panic unwinds through the driving method.
-/
import Vmb.Fake.Injection

namespace Vmb.Fake

open Vmb.Lib Vmb.Core

/-! ## Closures -/

/-- A user closure is invoked. A discovery callback is known by the `Arc` in the table: two ids may
share a closure. -/
inductive Invocation where
  | frame (callback : FrameCallback) (frame : Frame)
  | discovery (id : DiscoveryCallbackId) (callback : DiscoveryCallback) (event : DiscoveryEvent)
  deriving DecidableEq

@[reducible] def Closures : Signature := ⟨Invocation, fun _ => Exit Unit⟩

/-- The closures end as given. -/
def closures (ends : Invocation → Exit Unit) : Machine Closures Unit := fun x call => (ends call, x)

/-- The invocations of a program, in order. -/
def invocations {α : Type} (ends : Invocation → Exit Unit) (p : Prog Closures α) :
    List Invocation :=
  (p.history (closures ends) ()).map fun x => x.2.call

namespace FakeState

/-! ## Driving -/

/-- `emit_discovery`, with the callbacks it has copied out of the table. -/
def emitDiscovery (event : DiscoveryEvent) :
    List (DiscoveryCallbackId × DiscoveryCallback) → Prog Closures (Exit Unit)
  | [] => pure (.returned ())
  | (id, cb) :: callbacks =>
    Prog.call (S := Closures) (.discovery id cb event) fun r =>
      match r with
      | .panicked m => pure (.panicked m)
      | .returned () => emitDiscovery event callbacks

/-- The installed discovery callbacks, in some order: `HashMap::values` promises none. -/
structure Listed (s : FakeState) (callbacks : List (DiscoveryCallbackId × DiscoveryCallback)) :
    Prop where
  nodup : (callbacks.map Prod.fst).Nodup
  mem_iff : ∀ id cb, (id, cb) ∈ callbacks ↔ s.discoveryCallbacks.lookup id = some cb

/-- `deliver_frame`. -/
def deliverFrame (s : FakeState) (camera : CameraHandle) (bytes : List UInt8) (width height : UInt32)
    (pixelFormat : PixelFormat) : Prog Closures (Exit Bool × FakeState) :=
  match (s.activeCaptures.lookup camera).bind List.head? with
  | none => pure (.returned false, s)
  | some (_, cbId) =>
    match s.frameCallbacks.lookup cbId with
    | none => pure (.returned false, s)
    | some cb =>
      let (frameId, s) := s.nextU64
      -- the frame id is the timestamp, too
      let frame := ⟨bytes, width, height, pixelFormat, frameId, frameId⟩
      Prog.call (S := Closures) (.frame cb frame) fun r =>
        match r with
        | .panicked m => pure (.panicked m, s)
        | .returned () => pure (.returned true, s)

/-! ## Runs -/

/-- The port calls of a sequence with their answers. -/
def trace (s : FakeState) : List PortCall → List (Event Port)
  | [] => []
  | c :: cs => ⟨c, (fakeVmbRuntime s c).1⟩ :: (fakeVmbRuntime s c).2.trace cs

theorem after_append (s : FakeState) (cs : List PortCall) (c : PortCall) :
    s.after (cs ++ [c]) = (fakeVmbRuntime (s.after cs) c).2 := by
  rw [after, List.foldl_append]
  rfl

theorem trace_append (s : FakeState) (cs : List PortCall) (c : PortCall) :
    s.trace (cs ++ [c]) = s.trace cs ++ [⟨c, (fakeVmbRuntime (s.after cs) c).1⟩] := by
  induction cs generalizing s with
  | nil => rfl
  | cons c' cs ih => exact congrArg _ (ih (fakeVmbRuntime s c').2)

end FakeState

end Vmb.Fake

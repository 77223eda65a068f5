/-
# Vmb.Adapters.TeardownLocks -- the mutexes a teardown holds

User closures may own cameras and registrations, so a drop can destroy many objects: `Camera::drop`
uninstalls its closure, the closure is destroyed, and with it what it owns. Both adapters take the
closure out of its table in a statement whose temporaries hold the guard of that table until the
closure is gone. So a capture inside the closure of a capture locks the table of frame callbacks a
second time, and a subscription inside the closure of a subscription the table of discovery callbacks.
Every other mutex is released before anything is destroyed (`destructor`), and nothing else goes wrong
(`teardown_iff`).

One thread is modelled: a mutex another thread holds is waited for and becomes free. The mutexes of
the methods that no destructor calls are left out.
-/
import Vmb.Core.Domain
import Vmb.Lib.Teardown

namespace Vmb.Adapters

open Vmb.Lib Vmb.Core

/-! ## The objects of a program -/

/-- An object with a destructor that calls the adapter. -/
inductive Object where
  | camera (cam : Camera)
  | registration (reg : DiscoveryRegistration)
  deriving DecidableEq

namespace Object

/-- The destructor. -/
def drop : Object → PortM Unit
  | .camera cam => cam.drop
  | .registration reg => reg.drop

/-- The port calls of the destructor. -/
def dropCalls : Object → List PortCall
  | .camera cam =>
    (match cam.session with
      | none => []
      | some session =>
        [.runFeatureCommand cam.handle featureAcquisitionStop, .captureEnd cam.handle,
          .captureQueueFlush cam.handle, .frameRevokeAll cam.handle,
          .uninstallFrameCallback session.callbackId]) ++
      [.closeCamera cam.handle]
  | .registration reg =>
    reg.handle.toList.map .unregisterDiscovery ++
      reg.callbackId.toList.map .uninstallDiscoveryCallback

/-- Whatever they are answered, a destructor makes these calls. -/
theorem drop_calls (o : Object) {t : List (Event Port)} (h : o.drop.Runs t ()) :
    t.map Event.call = o.dropCalls := by
  cases o with
  | camera cam =>
      rcases hs : cam.session with - | session
      · simp only [drop, Camera.drop, hs] at h
        obtain ⟨r, t', rfl, rfl, -⟩ := h
        simp [dropCalls, hs]
      · simp only [drop, Camera.drop, Camera.stopCapture, hs] at h
        obtain ⟨r₁, t₁, rfl, r₂, t₂, rfl, r₃, t₃, rfl, r₄, t₄, rfl, r₅, t₅, rfl, r₆, t₆, rfl, rfl, -⟩ :=
          h
        simp [dropCalls, hs]
  | registration reg =>
      rcases reg with ⟨- | handle, - | id⟩
      · obtain ⟨rfl, -⟩ := h
        rfl
      · obtain ⟨r, t', rfl, rfl, -⟩ := h
        rfl
      · obtain ⟨r, t', rfl, rfl, -⟩ := h
        rfl
      · obtain ⟨r₁, t₁, rfl, r₂, t₂, rfl, rfl, -⟩ := h
        rfl

end Object

/-! ## The mutexes of the adapters -/

/-- The mutexes of the two adapters. -/
inductive Mutex where
  | config
  | calls
  | cameras
  | frames
  | announcedFrames
  | activeCaptures
  | frameCallbacks
  | discoveryCallbacks
  | discoveryRegs
  deriving DecidableEq

inductive Adapter where
  | vmbFfiRuntime
  | fakeVmbRuntime

/-- The locks of a method of `VmbFfiRuntime`, when the closure it uninstalls goes with `inside`. -/
def ffiLocks (inside : List (LockOp Mutex)) : PortCall → List (LockOp Mutex)
  | .runFeatureCommand _ _ => alone [.cameras]
  | .captureEnd _ => alone [.cameras]
  | .captureQueueFlush _ => alone [.cameras]
  | .frameRevokeAll _ => alone [.cameras, .frames]
  | .uninstallFrameCallback _ => under .frameCallbacks inside
  | .closeCamera _ => alone [.cameras]
  | .unregisterDiscovery _ => alone [.discoveryRegs]
  | .uninstallDiscoveryCallback _ => under .discoveryCallbacks inside
  | _ => []

/-- The locks of a method of `FakeVmbRuntime`: `record` takes `calls`, and `maybe_fail` takes
`config`. -/
def fakeLocks (inside : List (LockOp Mutex)) : PortCall → List (LockOp Mutex)
  | .runFeatureCommand _ _ => alone [.calls, .config]
  | .captureEnd _ => alone [.calls, .activeCaptures]
  | .captureQueueFlush _ => alone [.calls]
  | .frameRevokeAll _ => alone [.calls, .announcedFrames]
  | .uninstallFrameCallback _ => alone [.calls] ++ under .frameCallbacks inside
  | .closeCamera _ => alone [.calls, .cameras, .activeCaptures]
  | .unregisterDiscovery _ => alone [.calls, .discoveryRegs]
  | .uninstallDiscoveryCallback _ => alone [.calls] ++ under .discoveryCallbacks inside
  | _ => []

def Adapter.locks : Adapter → List (LockOp Mutex) → PortCall → List (LockOp Mutex)
  | .vmbFfiRuntime => ffiLocks
  | .fakeVmbRuntime => fakeLocks

/-! ## Teardowns -/

/-- The table that holds the closure of the object. -/
def Object.table : Object → Option Mutex
  | .camera cam => cam.session.map fun _ => .frameCallbacks
  | .registration reg => reg.callbackId.map fun _ => .discoveryCallbacks

/-- The objects of a program and what their closures own; the adapter has the last reference to each
closure. -/
structure Objects extends Ownership Object where
  /-- An object without a closure owns nothing. -/
  idle : ∀ i, (object i).table = none → owned i = []

/-- The lock operations of giving up one reference to an object. -/
def teardown (A : Adapter) (D : Objects) (i : Fin D.count) (strong : Fin D.count → Nat) :
    List (LockOp Mutex) :=
  (D.release i strong).1.ops fun o inside => o.dropCalls.flatMap (A.locks inside)

/-- The thread gets through, and every mutex is free again. -/
def Completes (ops : List (LockOp Mutex)) : Prop := exec ops [] = some []

instance (ops : List (LockOp Mutex)) : Decidable (Completes ops) :=
  inferInstanceAs (Decidable (exec ops [] = some []))

/-- The locks of a destructor: only the table of its closure is held while the closure goes. -/
def Adapter.destructor : Adapter → Object → Destructor Mutex
  | .vmbFfiRuntime, .camera cam =>
    match cam.session with
    | none => ⟨[.cameras], none, []⟩
    | some _ => ⟨[.cameras, .cameras, .cameras, .cameras, .frames], some .frameCallbacks, [.cameras]⟩
  | .fakeVmbRuntime, .camera cam =>
    match cam.session with
    | none => ⟨[.calls, .cameras, .activeCaptures], none, []⟩
    | some _ =>
      ⟨[.calls, .config, .calls, .activeCaptures, .calls, .calls, .announcedFrames, .calls],
        some .frameCallbacks, [.calls, .cameras, .activeCaptures]⟩
  | .vmbFfiRuntime, .registration reg =>
    ⟨reg.handle.toList.map fun _ => .discoveryRegs, reg.callbackId.map fun _ => .discoveryCallbacks,
      []⟩
  | .fakeVmbRuntime, .registration reg =>
    ⟨(reg.handle.toList.flatMap fun _ => [.calls, .discoveryRegs]) ++
        reg.callbackId.toList.map fun _ => .calls,
      reg.callbackId.map fun _ => .discoveryCallbacks, []⟩

theorem destructor_guard (A : Adapter) (o : Object) : (A.destructor o).guard = o.table := by
  cases o with
  | camera cam =>
      rcases hs : cam.session with - | session <;> cases A <;>
        simp [Adapter.destructor, Object.table, hs]
  | registration reg => cases A <;> rfl

/-- The calls of the destructor take the locks of `destructor`. -/
theorem destructor_ops (A : Adapter) (o : Object) {inside : List (LockOp Mutex)}
    (hidle : o.table = none → inside = []) :
    o.dropCalls.flatMap (A.locks inside) = (A.destructor o).ops inside := by
  cases o with
  | camera cam =>
      rcases hs : cam.session with - | session
      -- without a session nothing is uninstalled, so no closure goes
      · obtain rfl : inside = [] := hidle (by simp [Object.table, hs])
        cases A <;> simp [Object.dropCalls, hs, Adapter.locks, ffiLocks, fakeLocks, alone,
          Adapter.destructor, Destructor.ops, Destructor.around]
      · cases A <;> simp [Object.dropCalls, hs, Adapter.locks, ffiLocks, fakeLocks, alone,
          Adapter.destructor, Destructor.ops, Destructor.around]
  | registration reg =>
      rcases reg with ⟨handle, - | id⟩
      · obtain rfl : inside = [] := hidle rfl
        cases A <;> cases handle <;> rfl
      · cases A <;> cases handle <;> simp [Object.dropCalls, Adapter.locks, ffiLocks, fakeLocks, alone,
          Adapter.destructor, Destructor.ops, Destructor.around]

/-- Closures are kept in two tables. -/
theorem table_eq_some {o : Object} {m : Mutex} (h : o.table = some m) :
    m = .frameCallbacks ∨ m = .discoveryCallbacks := by
  cases o with
  | camera cam =>
      obtain ⟨session, -, rfl⟩ := Option.map_eq_some_iff.mp h
      exact Or.inl rfl
  | registration reg =>
      obtain ⟨id, -, rfl⟩ := Option.map_eq_some_iff.mp h
      exact Or.inr rfl

/-- These two are locked for a closure only. -/
theorem separate_destructor (A : Adapter) : Separate A.destructor := by
  intro a b m hguard
  rw [destructor_guard] at hguard
  cases b with
  | camera cam =>
      rcases hs : cam.session with - | session <;>
        rcases table_eq_some hguard with rfl | rfl <;> cases A <;> simp [Adapter.destructor, hs]
  | registration reg =>
      rcases reg with ⟨- | handle, - | id⟩ <;>
        rcases table_eq_some hguard with rfl | rfl <;> cases A <;> simp [Adapter.destructor]

theorem teardown_ops (A : Adapter) (D : Objects) (i : Fin D.count) (strong : Fin D.count → Nat) :
    teardown A D i strong = (D.release i strong).1.ops fun o => (A.destructor o).ops := by
  apply Destroyed.ops_congr
  refine Ownership.all_release (fun x inside hnone => destructor_ops A _ fun hidle => ?_) i strong
  rw [hnone (D.idle x hidle)]
  rfl

/-- A teardown that does not complete locks a mutex the thread holds. -/
theorem not_completes_iff (A : Adapter) (D : Objects) (i : Fin D.count)
    (strong : Fin D.count → Nat) :
    ¬ Completes (teardown A D i strong) ↔
      ∃ ops₁ m ops₂ held, teardown A D i strong = ops₁ ++ .lock m :: ops₂ ∧
        exec ops₁ [] = some held ∧ m ∈ held := by
  rw [← exec_eq_none_iff, Completes, teardown_ops]
  rcases exec_ops_cases (separate_destructor A) (D.release i strong).1 with h | h
  · simp [h]
  · simp [h]

/-- **A teardown locks itself out exactly if it destroys a capture inside a capture, or a subscription
inside a subscription.** -/
theorem teardown_iff (A : Adapter) (D : Objects) (i : Fin D.count) (strong : Fin D.count → Nat) :
    Completes (teardown A D i strong) ↔
      ∀ a b, (D.release i strong).1.Inside a b → ∀ m, a.table = some m → b.table ≠ some m := by
  rw [Completes, teardown_ops, exec_ops_iff (separate_destructor A)]
  simp only [destructor_guard]

/-- Where no object owns one with a closure in the same table, nothing is locked out. -/
theorem teardown_of_apart (A : Adapter) (D : Objects)
    (hapart : ∀ x y, Relation.TransGen D.Owns y x → ∀ m, (D.object x).table = some m →
      (D.object y).table ≠ some m) (i : Fin D.count) (strong : Fin D.count → Nat) :
    Completes (teardown A D i strong) := by
  rw [Completes, teardown_ops, exec_ops_iff (separate_destructor A)]
  intro a b hinside m ha
  obtain ⟨x, y, -, hy, rfl, rfl⟩ := Ownership.inside_release hinside
  rw [destructor_guard] at ha ⊢
  exact hapart x y hy m ha

/-! ## A camera that owns a camera -/

/-- A camera with a running capture. -/
def capturing (h : CameraHandle) (id : FrameCallbackId) : Object :=
  .camera ⟨h, "camera", some ⟨id, []⟩⟩

def outer : Object := capturing ⟨1, nonZero_one⟩ ⟨3⟩
def inner : Object := capturing ⟨2, nonZero_two⟩ ⟨4⟩

/-- The closure of the first capture owns the camera of the second. -/
def nestedCaptures : Objects where
  count := 2
  object i := if i = 0 then outer else inner
  owned i := if i = 0 then [1] else []
  acyclic := by
    have hlt : ∀ j i : Fin 2, j ∈ (if i = 0 then [1] else [] : List (Fin 2)) → i < j := by decide
    intro i hi
    suffices h : ∀ j k : Fin 2, Relation.TransGen _ j k → k < j from lt_irrefl i (h i i hi)
    intro j k hjk
    induction hjk with
    | single h => exact hlt _ _ h
    | tail _ h ih => exact (hlt _ _ h).trans ih
  idle := by decide

/-- Dropping the outer camera never returns. -/
theorem nestedCaptures_lockedOut :
    exec (teardown .vmbFfiRuntime nestedCaptures ⟨0, Nat.zero_lt_two⟩ fun _ => 1) [] = none ∧
      exec (teardown .fakeVmbRuntime nestedCaptures ⟨0, Nat.zero_lt_two⟩ fun _ => 1) [] = none := by
  have hinner : ∀ strong : Fin nestedCaptures.count → Nat, strong ⟨1, Nat.one_lt_two⟩ ≤ 1 →
      (nestedCaptures.release ⟨1, Nat.one_lt_two⟩ strong).1 = .node inner .nil .nil := by
    intro strong hle
    rw [Ownership.release_of_le hle]
    rfl
  have hrelease : (nestedCaptures.release ⟨0, Nat.zero_lt_two⟩ fun _ => 1).1 =
      .node outer (.node inner .nil .nil) .nil := by
    rw [Ownership.release_of_le le_rfl]
    exact congrArg (Destroyed.node outer · .nil) (congrArg (Destroyed.append · .nil) (hinner _ le_rfl))
  simp only [teardown, hrelease]
  decide

end Vmb.Adapters

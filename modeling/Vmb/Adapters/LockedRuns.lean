/-
# Vmb.Adapters.LockedRuns -- the raw handles, with the mutexes and the callbacks

`Vmb.Ffi.RawHandles` is about port calls whose steps interleave, with no mutexes and no callbacks. Here
threads run whole programs over the port, the SDK runs the trampolines, whose closures call the port again,
every method takes its mutexes, and an uninstalled closure is destroyed under the mutex of its table, where
it may close the cameras it owns. With the moves on mutexes left out (`Pool.unlocked_run`) a schedule of
such threads is a schedule of atomic steps, and every operation still hands on the raw handles it gets. So
they are closed once here too (`closed_once_locked`).
-/
import Vmb.Adapters.FfiLocks
import Vmb.Ffi.RawHandles

namespace Vmb.Adapters

open Vmb.Lib Vmb.Core Vmb.Sdk Vmb.Ffi

variable {τ : Type} {closures : Closures}

/-! ## Destructors -/

/-- The destructor does what it does by calling the port. -/
def ThroughPort (drop : Prog FfiLocking Unit) : Prop := ∃ p : PortM Unit, drop = p.through locked

/-- The closures are destroyed through the port: a closure may own cameras and registrations. -/
structure Closures.ThroughPort (closures : Closures) : Prop where
  frame : ∀ f, Adapters.ThroughPort (closures.dropFrame f)
  discovery : ∀ f, Adapters.ThroughPort (closures.dropDiscovery f)

/-- Without its mutexes, the destructor of what has been removed is a program of atomic steps. -/
theorem unlocked_dropRemoved {α : Type} {drop : α → Prog FfiLocking Unit}
    (h : ∀ f, ThroughPort (drop f)) (removed : Option α) :
    ∃ p : PortM Unit, (dropRemoved drop removed).unlocked = p.through steps := by
  cases removed with
  | none => exact ⟨pure (), rfl⟩
  | some f =>
      obtain ⟨p, hp⟩ := h f
      refine ⟨p, ?_⟩
      rw [dropRemoved, hp, Prog.unlocked_through]
      exact congrArg (fun impl => p.through impl) (funext unlocked_locked)

/-! ## Raw handles are handed on -/

theorem through_rawInHand {α : Type} (p : PortM α) :
    (p.through steps).Ensures rawInHand Unwrapped (fun _ v => v = none) none :=
  (Prog.callsOnly_true p).ensures_through fun c _ => steps_rawInHand c

theorem locked_rawInHand (c : PortCall) :
    (locked c).unlocked.Ensures rawInHand Unwrapped (fun _ v => v = none) none := by
  rw [unlocked_locked]
  exact steps_rawInHand c

/-- A trampoline opens and closes no camera. -/
def KeepsCameras : ThreadCall → Prop
  | .port _ => True
  | .sdk (.vmbCameraOpen _ _) => False
  | .sdk (.vmbCameraClose _) => False
  | .sdk _ => True

theorem program_keepsCameras (closures : Closures) (task : Task) :
    (task.program closures).CallsOnly KeepsCameras := by
  have hport : ∀ {α : Type} (p : PortM α), (p.through callPort).CallsOnly KeepsCameras :=
    fun p => (Prog.callsOnly_true p).through fun _ _ => ⟨trivial, fun _ => trivial⟩
  rcases task with p | ⟨mem, hostTsNs, handle, ptr⟩ | ⟨heap, handle, ctx⟩
  · exact hport p
  · refine (Prog.callsOnly_true _).through fun c _ => ?_
    cases c with
    | systemTime => trivial
    | invoke f frame => exact hport (closures.frame f frame)
    | vmbCaptureFrameQueue handle frame callback => exact ⟨trivial, fun _ => trivial⟩
    | dangling ptr => trivial
  · refine Prog.CallsOnly.bind ((discoveryTrampoline_reads heap handle ctx).through fun c hc => ?_)
      fun delivery => ?_
    · refine ⟨?_, fun _ => trivial⟩
      cases c <;> first | exact hc.elim | trivial
    · cases delivery with
      | invoked f event => exact (hport (closures.discovery f event)).bind fun _ => trivial
      | ignored => trivial
      | dangling => trivial
      | panicked m => trivial

/-- **A method hands on every raw handle it gets**, and so do the destructors it runs. -/
theorem Closures.ThroughPort.rawInHand (hdrop : closures.ThroughPort) (c : PortCall) :
    (closures.locked c).unlocked.Ensures rawInHand Unwrapped (fun _ v => v = none) none := by
  cases c with
  | uninstallFrameCallback id =>
      refine ⟨trivial, fun removed _ => ⟨trivial, fun _ _ => ?_⟩⟩
      obtain ⟨p, hp⟩ := unlocked_dropRemoved hdrop.frame removed
      show (dropRemoved closures.dropFrame removed >>= fun _ => unlock .frameCallbacks).unlocked.Ensures
        _ _ _ _
      rw [Prog.unlocked_bind, hp]
      exact Prog.ensures_bind.mpr ((through_rawInHand p).mono fun _ _ hv => hv)
  | uninstallDiscoveryCallback id =>
      refine ⟨trivial, fun removed _ => ⟨trivial, fun _ _ => ?_⟩⟩
      obtain ⟨p, hp⟩ := unlocked_dropRemoved hdrop.discovery removed
      show (dropRemoved closures.dropDiscovery removed >>= fun _ =>
        unlock .discoveryCallbacks).unlocked.Ensures _ _ _ _
      rw [Prog.unlocked_bind, hp]
      exact Prog.ensures_bind.mpr ((through_rawInHand p).mono fun _ _ hv => hv)
  | _ => exact locked_rawInHand _

theorem unlocked_rawInHand (hdrop : closures.ThroughPort) {c : ThreadCall} (hc : KeepsCameras c) :
    (c.locked closures).unlocked.Ensures rawInHand Unwrapped (fun _ v => v = none) none := by
  rcases c with c | c
  · exact hdrop.rawInHand c
  · cases c <;> first | exact hc.elim | exact ⟨trivial, fun _ _ => rfl⟩

theorem perform_rawInHand (hdrop : closures.ThroughPort) (task : Task) (x : Unit) :
    (task.perform closures x).unlocked.Ensures rawInHand Unwrapped (fun _ v => v = none) none := by
  show ((task.program closures).through (ThreadCall.locked closures) >>= fun _ =>
    Prog.done ((), ())).unlocked.Ensures _ _ _ _
  rw [Prog.unlocked_bind, Prog.unlocked_through]
  exact Prog.ensures_bind.mpr ((program_keepsCameras closures task).ensures_through fun c hc =>
    unlocked_rawInHand hdrop hc)

/-! ## Identifiers are filed -/

theorem through_files {α : Type} (p : PortM α) (v : Register.View Ident) :
    (p.through steps).Meets (register τ).discipline (fun _ _ => True) v := by
  have himpl : ∀ (u : Unit) (v : Register.View Ident) c, True → (Contract.free Port).pre u c →
      (steps c).Meets (register τ).discipline (fun _ _ => True) v :=
    fun _ v c _ _ => (steps_files c v).mono fun _ _ _ => trivial
  exact (p.meets_free.through trivial himpl).mono fun _ _ _ => trivial

theorem locked_files (c : PortCall) (v : Register.View Ident) :
    (locked c).unlocked.Meets (register τ).discipline (fun _ _ => True) v := by
  rw [unlocked_locked]
  exact (steps_files c v).mono fun _ _ _ => trivial

/-- **A method files under the number it has drawn**, and so do the destructors it runs. -/
theorem Closures.ThroughPort.files (hdrop : closures.ThroughPort) (c : PortCall)
    (v : Register.View Ident) :
    (closures.locked c).unlocked.Meets (register τ).discipline (fun _ _ => True) v := by
  cases c with
  | uninstallFrameCallback id =>
      refine meets_access rfl fun removed => meets_access rfl fun _ => ?_
      obtain ⟨p, hp⟩ := unlocked_dropRemoved hdrop.frame removed
      show (dropRemoved closures.dropFrame removed >>= fun _ => unlock .frameCallbacks).unlocked.Meets _ _ _
      rw [Prog.unlocked_bind, hp]
      exact Prog.meets_bind.mpr ((through_files p v).mono fun _ _ _ => trivial)
  | uninstallDiscoveryCallback id =>
      refine meets_access rfl fun removed => meets_access rfl fun _ => ?_
      obtain ⟨p, hp⟩ := unlocked_dropRemoved hdrop.discovery removed
      show (dropRemoved closures.dropDiscovery removed >>= fun _ =>
        unlock .discoveryCallbacks).unlocked.Meets _ _ _
      rw [Prog.unlocked_bind, hp]
      exact Prog.meets_bind.mpr ((through_files p v).mono fun _ _ _ => trivial)
  | _ => exact locked_files _ v

theorem unlocked_files (hdrop : closures.ThroughPort) (c : ThreadCall) (v : Register.View Ident) :
    (c.locked closures).unlocked.Meets (register τ).discipline (fun _ _ => True) v := by
  rcases c with c | c
  · exact hdrop.files c v
  · exact meets_sdk fun _ => trivial

theorem perform_files (hdrop : closures.ThroughPort) (task : Task) (x : Unit) (v : Register.View Ident) :
    (task.perform closures x).unlocked.Meets (register τ).discipline (fun _ _ => True) v := by
  show ((task.program closures).through (ThreadCall.locked closures) >>= fun _ =>
    Prog.done ((), ())).unlocked.Meets _ _ _
  rw [Prog.unlocked_bind, Prog.unlocked_through]
  have himpl : ∀ (u : Unit) (v : Register.View Ident) c, True → (Contract.free ThreadCalls).pre u c →
      (c.locked closures).unlocked.Meets (register τ).discipline (fun _ _ => True) v :=
    fun _ v c _ _ => unlocked_files hdrop c v
  exact Prog.meets_bind.mpr (((task.program closures).meets_free.through trivial himpl).mono
    fun _ _ _ => trivial)

/-! ## Runs -/

section Runs

variable {ι : Type} [DecidableEq ι]

/-- The SDK calls of a schedule, in order. -/
abbrev sdkCalls (P : Pool FfiLocking ((FfiState × τ) × Finset Mutex) ι Unit Unit) : List (Event VmbC) :=
  sdkTrace P.unlocked.log

/-- **A raw handle is closed once, and while it is open**, whatever the threads and the callbacks do, with
the mutexes held where the code holds them. No two handles of the table stand for one raw handle, and when
every operation has ended the table holds exactly the raw handles that are open. -/
theorem closed_once_locked (api : VmbApi τ) (hdrop : closures.ThroughPort) (started : Bool) (t : τ)
    (moves : List (Move ι Task))
    (hlimit : ((register τ).draws
      (ffiRun api closures { FfiState.new with started } t moves).unlocked.log).length < 2 ^ 64 - 1)
    (hfresh : FreshOpens (sdkCalls (ffiRun api closures { FfiState.new with started } t moves))) :
    ClosesOpen (sdkCalls (ffiRun api closures { FfiState.new with started } t moves)) ∧
      (∀ h h' raw,
        (ffiRun api closures { FfiState.new with started } t moves).shared.1.1.cameras.lookup h = some raw →
        (ffiRun api closures { FfiState.new with started } t moves).shared.1.1.cameras.lookup h' = some raw →
        h = h') ∧
      ((∀ u, ((ffiRun api closures { FfiState.new with started } t moves).threads u).running = none) →
        ∀ raw, SdkOpen (sdkCalls (ffiRun api closures { FfiState.new with started } t moves)) raw ↔
          ∃ h, (ffiRun api closures { FfiState.new with started } t moves).shared.1.1.cameras.lookup h =
            some raw) := by
  obtain ⟨moves', -, hrun⟩ := Pool.unlocked_run (m := stepMachine api)
    (ffiThreads { FfiState.new with started } t) (Task.perform closures) moves
  obtain ⟨-, hkept⟩ := RawKept.run api started t (perform_rawInHand hdrop) (perform_files hdrop) ()
    moves' hrun.symm hlimit hfresh
  refine ⟨hkept.closes, hkept.exact.1, fun hrest => hkept.exact.2 fun u => ?_⟩
  show ((ffiRun api closures { FfiState.new with started } t moves).threads u).running.map Prog.unlocked =
    none
  rw [hrest u, Option.map_none]

/-- A closure that owns a camera, and opens another one for every frame. -/
def owning : Closures where
  frame _ _ := do
    let _ ← port (.openCamera "DEV_2")
    pure (.returned ())
  discovery _ _ := pure (.returned ())
  dropFrame _ := (port (.closeCamera ⟨⟨1, nonZero_one⟩⟩)).through locked
  dropDiscovery _ := pure ()

theorem owning_throughPort : owning.ThroughPort := ⟨fun _ => ⟨_, rfl⟩, fun _ => ⟨pure (), rfl⟩⟩

/-- A client installs such a closure and takes it out again, which closes the camera it owns. While the
client holds the mutex of the closures, the SDK delivers a frame. -/
def droppingOwner : List (Move Bool Task) :=
  [.invoke false (.client do
      let _ ← port (.openCamera "DEV_1")
      let id ← port (.installFrameCallback ⟨9⟩)
      port (.uninstallFrameCallback id)),
    .invoke true (.frameCallback ⟨fun _ => some filled, fun _ => 0⟩ 5 3 8)] ++
    List.replicate 10 (.step false) ++ List.replicate 6 (.step true) ++ List.replicate 8 (.step false) ++
    [.step true]

theorem closed_once_locked_droppingOwner :
    (sdkCalls (ffiRun mockApi owning .new 5 droppingOwner)).length = 4 ∧
      ClosesOpen (sdkCalls (ffiRun mockApi owning .new 5 droppingOwner)) ∧
      ∀ raw, SdkOpen (sdkCalls (ffiRun mockApi owning .new 5 droppingOwner)) raw ↔
        ∃ h, (ffiRun mockApi owning .new 5 droppingOwner).shared.1.1.cameras.lookup h = some raw := by
  have hfresh : FreshOpens (sdkCalls (ffiRun mockApi owning .new 5 droppingOwner)) :=
    freshOpens_of_nodup (by decide +kernel)
  have hrest : ∀ u, ((ffiRun mockApi owning .new 5 droppingOwner).threads u).running = none :=
    fun u => Option.isNone_iff_eq_none.mp (by revert u; decide +kernel)
  obtain ⟨hcloses, -, hopen⟩ := closed_once_locked mockApi owning_throughPort false 5 droppingOwner
    (by decide +kernel) hfresh
  exact ⟨by decide +kernel, hcloses, hopen hrest⟩

end Runs

end Vmb.Adapters

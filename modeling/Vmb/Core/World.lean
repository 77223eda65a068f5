/-
# Vmb.Core.World -- client programs over the domain layer

A client program owns objects of the domain layer under names and applies their methods one after
the other. `World` maps a name to the object it owns, `Action.perform` is one method call on the
object of one name, and `runOps` is a whole sequential run, which is itself a program over the port.

Rust's ownership rules decide which method calls exist: a name that owns nothing cannot be used, a
name that owns an object cannot be bound again before it is dropped. A call the rules exclude does
nothing and is `skipped`, so every list of operations is a legal run.
-/
import Vmb.Core.Domain
import Vmb.Lib.Since
import Mathlib.Logic.Function.Basic

namespace Vmb.Core

open Vmb.Lib

/-! ## Objects and worlds -/

/-- An object of the domain layer, with the closure its owner gave away. -/
inductive Object where
  | system
  /-- A camera, and the closure of its last `start_capture` that returned `Ok`. -/
  | camera (cam : Camera) (closure : FrameCallback)
  | registration (reg : DiscoveryRegistration) (closure : DiscoveryCallback)
  deriving DecidableEq

/-- The objects a client program owns. -/
abbrev World := Nat → Option Object

/-- The client program before its first operation. -/
def World.empty : World := fun _ => none

/-! ## Method calls -/

/-- A method call on the object of one name, without the name. -/
inductive Action where
  | startup
  | listCameras
  | openCamera (id : String)
  | registerDiscovery (closure : DiscoveryCallback)
  | loadSettings (path : Path)
  | startCapture (numBuffers : Nat) (closure : FrameCallback)
  | stopCapture
  | drop
  deriving DecidableEq

/-- What the caller sees of a method call. -/
inductive Outcome where
  | skipped
  | listed (r : Result (List CameraInfo))
  | finished (r : Exit (Result Unit))
  deriving DecidableEq

/-- The method returned an error. -/
def Outcome.Failed (o : Outcome) : Prop := ∃ e, o = .finished (.returned (.error e))

/-- The outcome of a method that returns `Result<T, VmbError>`, without the `T`. -/
def Outcome.ofResult {α : Type} (r : Result α) : Outcome := .finished (.returned (r.map fun _ => ()))

namespace Action

/-- `VmbSystem::startup`. -/
def startupOn : PortM (Outcome × Option Object) := do
  let r ← VmbSystem.startup
  pure (.ofResult r, match r with | .ok () => some .system | .error _ => none)

/-- `VmbSystem::open_camera`, which is `Camera::open` on the runtime of the system. -/
def openCameraOn (id : String) : PortM (Outcome × Option Object) := do
  match ← VmbSystem.openCamera id with
  | .panicked m => pure (.finished (.panicked m), none)
  | .returned (.error e) => pure (.ofResult (.error e : Result Unit), none)
  | .returned (.ok cam) => pure (.ofResult (.ok ()), some (.camera cam ⟨0⟩))

/-- `VmbSystem::register_discovery`, which is `register_camera_discovery` on the runtime of the
system. -/
def registerDiscoveryOn (closure : DiscoveryCallback) : PortM (Outcome × Option Object) := do
  match ← VmbSystem.registerDiscovery closure with
  | .error e => pure (.ofResult (.error e : Result Unit), none)
  | .ok reg => pure (.ofResult (.ok ()), some (.registration reg closure))

/-- `Camera::start_capture`; on `Ok` the new session owns `closure`. -/
def startCaptureOn (cam : Camera) (old : FrameCallback) (numBuffers : Nat)
    (closure : FrameCallback) : PortM (Outcome × Option Object) := do
  let (r, cam') ← cam.startCapture numBuffers closure
  pure (.finished r, some (.camera cam' (if r = .returned (.ok ()) then closure else old)))

/-- `Camera::stop_capture`. -/
def stopCaptureOn (cam : Camera) (closure : FrameCallback) : PortM (Outcome × Option Object) := do
  let (r, cam') ← cam.stopCapture
  pure (.ofResult r, some (.camera cam' closure))

/-- The destructor of an object. -/
def dropOn : Object → PortM Unit
  | .system => VmbSystem.drop
  | .camera cam _ => cam.drop
  | .registration reg _ => reg.drop

/-- A method call on what a name owns, and what the name owns afterwards. -/
def perform : Action → Option Object → PortM (Outcome × Option Object)
  | .startup, none => startupOn
  | .listCameras, some .system => do
    let r ← VmbSystem.listCameras
    pure (.listed r, some .system)
  | .openCamera id, none => openCameraOn id
  | .registerDiscovery closure, none => registerDiscoveryOn closure
  | .loadSettings path, some (.camera cam closure) => do
    let r ← cam.loadSettings path
    pure (.ofResult r, some (.camera cam closure))
  | .startCapture n closure, some (.camera cam old) => startCaptureOn cam old n closure
  | .stopCapture, some (.camera cam closure) => stopCaptureOn cam closure
  | .drop, some obj => do
    dropOn obj
    pure (.ofResult (.ok ()), none)
  -- what the ownership rules do not allow cannot be written in the source language
  | _, obj => pure (.skipped, obj)

/-- The ownership rules allow the method call on what the name owns. -/
inductive Applies : Action → Option Object → Prop
  | startup : Applies .startup none
  | listCameras : Applies .listCameras (some .system)
  | openCamera (id : String) : Applies (.openCamera id) none
  | registerDiscovery (closure : DiscoveryCallback) : Applies (.registerDiscovery closure) none
  | loadSettings (path : Path) (cam : Camera) (closure : FrameCallback) :
      Applies (.loadSettings path) (some (.camera cam closure))
  | startCapture (n : Nat) (closure : FrameCallback) (cam : Camera) (old : FrameCallback) :
      Applies (.startCapture n closure) (some (.camera cam old))
  | stopCapture (cam : Camera) (closure : FrameCallback) :
      Applies .stopCapture (some (.camera cam closure))
  | dropSystem : Applies .drop (some .system)
  | dropCamera (cam : Camera) (closure : FrameCallback) : Applies .drop (some (.camera cam closure))
  | dropRegistration (reg : DiscoveryRegistration) (closure : DiscoveryCallback) :
      Applies .drop (some (.registration reg closure))

/-- A method call is allowed, or nothing happens. -/
theorem perform_cases (a : Action) (obj : Option Object) :
    a.perform obj = pure (.skipped, obj) ∨ a.Applies obj := by
  rcases obj with - | - | ⟨cam, f⟩ | ⟨reg, f⟩ <;> cases a <;>
    first | exact Or.inl rfl | exact Or.inr (by constructor)

end Action

/-! ## Operations and runs -/

/-- A method call of the client program: on the object of name `on`, and for `open_camera` and
`register_discovery` the name of the `VmbSystem` it is called on (`none` when the client calls
`Camera::open` or `register_camera_discovery` with a runtime of its own). -/
structure Op where
  target : Nat
  via : Option Nat
  action : Action
  deriving DecidableEq

/-- The system an operation goes through is alive. -/
def Op.Reachable (op : Op) (W : World) : Prop := ∀ y, op.via = some y → W y = some .system

instance (op : Op) (W : World) : Decidable (op.Reachable W) :=
  match h : op.via with
  | none => isTrue (by simp [Op.Reachable, h])
  | some y => decidable_of_iff (W y = some .system) (by simp [Op.Reachable, h])

/-- Perform one operation. -/
def Op.run (op : Op) (W : World) : PortM (Outcome × World) :=
  if op.Reachable W then do
    let (o, obj) ← op.action.perform (W op.target)
    pure (o, Function.update W op.target obj)
  -- the system has been dropped or was never started
  else
    pure (.skipped, W)

/-- One operation of a run: the world it was started in, and its outcome. -/
structure Step where
  world : World
  op : Op
  outcome : Outcome

/-- A sequential run of a client program: its steps, and the objects it owns at the end. -/
def runOps : List Op → World → PortM (List Step × World)
  | [], W => pure ([], W)
  | op :: ops, W => do
    let (o, W') ← op.run W
    let (steps, W'') ← runOps ops W'
    pure (⟨W, op, o⟩ :: steps, W'')

/-! ## Invariants of runs -/

section Runs

variable {σ : Type} {m : VmbRuntime σ}

theorem run_runOps_cons (op : Op) (ops : List Op) (W : World) (s : σ) :
    (runOps (op :: ops) W).run m s =
      let r := (op.run W).run m s
      let r' := (runOps ops r.1.2).run m r.2
      ((⟨W, op, r.1.1⟩ :: r'.1.1, r'.1.2), r'.2) := by
  simp only [runOps, Prog.run_bind, Prog.pure_eq_done, Prog.run_done]

theorem history_runOps_cons (op : Op) (ops : List Op) (W : World) (s : σ) :
    (runOps (op :: ops) W).history m s =
      (op.run W).history m s ++
        (runOps ops ((op.run W).run m s).1.2).history m ((op.run W).run m s).2 := by
  simp only [runOps, Prog.history_bind, Prog.pure_eq_done, Prog.history, List.append_nil]

/-- A run of some operations and then some more. -/
theorem run_runOps_append (ops ops' : List Op) (W : World) (s : σ) :
    (runOps (ops ++ ops') W).run m s =
      let r := (runOps ops W).run m s
      let r' := (runOps ops' r.1.2).run m r.2
      ((r.1.1 ++ r'.1.1, r'.1.2), r'.2) := by
  induction ops generalizing W s with
  | nil => rfl
  | cons op ops ih =>
      simp only [List.cons_append, run_runOps_cons, ih]

theorem history_runOps_append (ops ops' : List Op) (W : World) (s : σ) :
    (runOps (ops ++ ops') W).history m s =
      (runOps ops W).history m s ++
        (runOps ops' ((runOps ops W).run m s).1.2).history m ((runOps ops W).run m s).2 := by
  induction ops generalizing W s with
  | nil => rfl
  | cons op ops ih =>
      rw [List.cons_append, history_runOps_cons, history_runOps_cons, ih, List.append_assoc,
        run_runOps_cons]

/-- An operation of a client that needs no system is its method call. -/
theorem Op.run_of_perform {op : Op} {W : World} {s s' : σ} {o : Outcome} {obj : Option Object}
    (hvia : op.via = none) (h : (op.action.perform (W op.target)).run m s = ((o, obj), s')) :
    (op.run W).run m s = ((o, Function.update W op.target obj), s') := by
  have hreach : op.Reachable W := by simp [Op.Reachable, hvia]
  unfold Op.run
  rw [if_pos hreach, Prog.run_bind, h]
  rfl

/-- The operations of a `VmbSystem`, one port call each. -/
theorem Op.run_startup {op : Op} {W : World} (hop : op.Reachable W) (ha : op.action = .startup)
    (hx : W op.target = none) (s : σ) :
    (op.run W).run m s =
      ((.ofResult (m s .startup).1, Function.update W op.target
        (match (m s .startup).1 with | .ok () => some .system | .error _ => none)),
        (m s .startup).2) := by
  unfold Op.run
  rw [if_pos hop, ha, hx]
  rfl

theorem Op.run_listCameras {op : Op} {W : World} (hop : op.Reachable W)
    (ha : op.action = .listCameras) (hx : W op.target = some .system) (s : σ) :
    (op.run W).run m s = ((.listed (m s .listCameras).1, W), (m s .listCameras).2) := by
  have hsame : Function.update W op.target (some .system) = W := by
    rw [← hx]
    exact Function.update_eq_self op.target W
  unfold Op.run
  rw [if_pos hop, ha, hx]
  show ((Outcome.listed (m s .listCameras).1, Function.update W op.target (some .system)),
    (m s .listCameras).2) = _
  rw [hsame]

theorem Op.run_dropSystem {op : Op} {W : World} (hop : op.Reachable W) (ha : op.action = .drop)
    (hx : W op.target = some .system) (s : σ) :
    (op.run W).run m s =
      ((.ofResult (.ok ()), Function.update W op.target none), (m s .shutdown).2) := by
  unfold Op.run
  rw [if_pos hop, ha, hx]
  rfl

/-- The steps of a run are its operations. -/
theorem mem_of_mem_steps {ops : List Op} {W : World} {s : σ} {st : Step}
    (h : st ∈ ((runOps ops W).run m s).1.1) : st.op ∈ ops := by
  induction ops generalizing W s with
  | nil => exact absurd h List.not_mem_nil
  | cons op ops ih =>
      rw [run_runOps_cons] at h
      rcases List.mem_cons.mp h with rfl | h
      · exact List.mem_cons_self
      · exact List.mem_cons_of_mem _ (ih h)

/-- An operation leaves the objects of other names alone. -/
theorem Op.run_other (op : Op) (W : World) (s : σ) {x : Nat} (hx : x ≠ op.target) :
    ((op.run W).run m s).1.2 x = W x := by
  unfold Op.run
  split
  · simp only [Prog.run_bind, Prog.pure_eq_done, Prog.run_done, Function.update_of_ne hx]
  · rfl

/-- A name no operation uses owns what it owned. -/
theorem run_runOps_other {ops : List Op} {x : Nat} (hx : ∀ op ∈ ops, x ≠ op.target) (W : World)
    (s : σ) : ((runOps ops W).run m s).1.2 x = W x := by
  induction ops generalizing W s with
  | nil => rfl
  | cons op ops ih =>
      rw [run_runOps_cons]
      refine (ih (fun op' hop => hx op' (List.mem_cons_of_mem _ hop)) _ _).trans ?_
      exact op.run_other W s (hx op List.mem_cons_self)

/-- The run lemma: what every step allowed by `P` preserves holds at the end of a run whose steps `P`
allows, each by the steps before it. -/
theorem runOps_invariant (I : σ → World → List Step → Prop) (P : List Step → Step → Prop)
    (hop : ∀ s W pre (op : Op), I s W pre → P pre ⟨W, op, ((op.run W).run m s).1.1⟩ →
      I ((op.run W).run m s).2 ((op.run W).run m s).1.2
        (pre ++ [⟨W, op, ((op.run W).run m s).1.1⟩]))
    (ops : List Op) (W : World) (s : σ) (pre : List Step) (hI : I s W pre)
    (hP : Conforms (fun l st => P (pre ++ l) st) ((runOps ops W).run m s).1.1) :
    I ((runOps ops W).run m s).2 ((runOps ops W).run m s).1.2
      (pre ++ ((runOps ops W).run m s).1.1) := by
  induction ops generalizing W s pre with
  | nil =>
      show I s W (pre ++ [])
      rw [List.append_nil]
      exact hI
  | cons op ops ih =>
      rw [run_runOps_cons] at hP ⊢
      obtain ⟨hfirst, hrest⟩ := conforms_cons.mp hP
      rw [List.append_nil] at hfirst
      have hrun := ih _ _ _ (hop s W pre op hI hfirst)
        (by simpa only [List.append_assoc, List.singleton_append] using hrest)
      rw [List.append_assoc] at hrun
      exact hrun

end Runs

end Vmb.Core

/-
# Vmb.Adapters.FfiLocks -- the mutexes of the production adapter, with many threads

Every table of `FfiState` has a mutex of its own. A method takes the mutex of a table for one access
and gives it back; only `queue_frame` keeps `frames` locked while it calls the SDK, and the two uninstall
methods keep their table locked until the closure they have taken out is gone. Here the methods take and
release their mutexes explicitly (`locked`), client threads run any programs over the port, and SDK threads
run the trampolines, whose closures may call the port again.

Some SDK functions wait until no callback is running. They are called with no mutex held, so no schedule
gets stuck (`ffi_quiesces`), as long as a closure does not call such a function from inside a callback, and
as long as its destructor takes no mutex and does not wait: a closure that owns a camera or a registration
may lock its own table twice (`Vmb.Adapters.TeardownLocks`). No method ends, by returning or by a panic,
with a mutex held, so none is ever poisoned.
-/
import Vmb.Adapters.TeardownLocks
import Vmb.Ffi.Atomic
import Vmb.Ffi.FrameTrampoline
import Vmb.Lib.Draining

namespace Vmb.Adapters

open Vmb.Lib Vmb.Core Vmb.Sdk Vmb.Ffi

/-! ## The methods with their mutexes -/

/-- The mutex of the table an access is about. -/
def ffiTable : Access → Option Mutex
  | .getCamera _ => some .cameras
  | .insertCamera _ _ => some .cameras
  | .removeCamera _ => some .cameras
  | .insertFrame _ _ => some .frames
  | .patchFrame _ _ => some .frames
  | .clearFrames => some .frames
  | .getFrameCallback _ => some .frameCallbacks
  | .insertFrameCallback _ _ => some .frameCallbacks
  | .removeFrameCallback _ => some .frameCallbacks
  | .getDiscoveryCallback _ => some .discoveryCallbacks
  | .insertDiscoveryCallback _ _ => some .discoveryCallbacks
  | .removeDiscoveryCallback _ => some .discoveryCallbacks
  | .insertReg _ _ => some .discoveryRegs
  | .removeReg _ => some .discoveryRegs
  -- the flag and the counter are atomic, and the heap is the allocator's
  | _ => none

/-- The mutex a step is made under. -/
def ffiGuard : AtomicStep → Option Mutex
  | .sdk _ => none
  | .access c => ffiTable c

/-- The adapter with its mutexes. -/
abbrev FfiLocking : Signature := Locking Steps Mutex

def lock (l : Mutex) : Prog FfiLocking Unit := Prog.call (S := FfiLocking) (.lock l) Prog.done
def unlock (l : Mutex) : Prog FfiLocking Unit := Prog.call (S := FfiLocking) (.unlock l) Prog.done

/-- A step inside a critical section. -/
def inside (c : AtomicStep) : Prog FfiLocking c.Resp :=
  Prog.call (S := FfiLocking) (.call c) Prog.done

/-- `queue_frame`: the guard of `frames` lives until the end of the method. -/
def queueFrame (h : CameraHandle) (slot : FrameSlotId) (cb : FrameCallbackId) :
    Prog FfiLocking (Result Unit) := do
  match ← (Atomic.resolveCamera h).guarded ffiGuard with
  | .error e => pure (.error e)
  | .ok raw => do
    match ← (access (.getFrameCallback cb)).guarded ffiGuard with
    | none => pure (.error (.invalidString "unknown frame callback id"))
    | some callback => do
      lock .frames
      match ← inside (.access (.patchFrame slot callback)) with
      | none => do
        unlock .frames
        pure (.error (.invalidString "unknown frame slot id"))
      | some framePtr => do
        let rc ← inside (.sdk (.vmbCaptureFrameQueue raw framePtr .frameCallbackTrampoline))
        unlock .frames
        pure (check rc)

/-- The method behind a port call, with its mutexes, when the closures have no destructors:
`Closures.locked` runs these too. -/
def locked : (c : PortCall) → Prog FfiLocking c.Resp
  | .queueFrame h slot cb => queueFrame h slot cb
  | c => (steps c).guarded ffiGuard

/-- Without the mutexes, the steps are those of `Vmb.Ffi.Atomic`. -/
theorem unlocked_locked (c : PortCall) : (locked c).unlocked = steps c := by
  cases c with
  | queueFrame h slot cb =>
      show (queueFrame h slot cb).unlocked = Atomic.queueFrame h slot cb
      unfold queueFrame Atomic.queueFrame Atomic.withCamera
      rw [Prog.unlocked_bind, Prog.unlocked_guarded]
      refine congrArg _ (funext fun resolved => ?_)
      cases resolved with
      | error e => rfl
      | ok raw =>
          dsimp only
          rw [Prog.unlocked_bind, Prog.unlocked_guarded]
          refine congrArg _ (funext fun found => ?_)
          cases found with
          | none => rfl
          | some callback =>
              refine congrArg _ (funext fun patched => ?_)
              cases patched with
              | none => rfl
              | some framePtr => rfl
  | _ => exact Prog.unlocked_guarded _ _

/-! ## The discipline -/

/-- The mutexes of the adapter, and the SDK functions that wait for the callbacks to end. -/
def ffiConventions (waits : SdkCall → Prop) : Conventions Steps Mutex where
  guard := ffiGuard
  waits
    | .sdk c => waits c
    | .access _ => False

/-- What may be called from inside a callback, or with `frames` locked, does not wait for the
callbacks to end. -/
structure Prompt (waits : SdkCall → Prop) : Prop where
  queue : ∀ handle frame callback, ¬ waits (.vmbCaptureFrameQueue handle frame callback)
  reads : ∀ {c}, ReadsFeature c → ¬ waits c

variable {waits : SdkCall → Prop}

theorem not_waits_guarded (waits : SdkCall → Prop) (c : AtomicStep) (l : Mutex)
    (h : (ffiConventions waits).guard c = some l) : ¬ (ffiConventions waits).waits c := by
  cases c with
  | sdk c => cases h
  | access c => exact id

theorem guarded_disciplined {α : Type} (waits : SdkCall → Prop) (p : Prog Steps α) :
    (p.guarded ffiGuard).Disciplined (ffiConventions waits) :=
  disciplined_guarded (not_waits_guarded waits) p

/-- **Every method keeps the discipline**: it holds one mutex at a time, none while the SDK waits, and
none when it ends. -/
theorem locked_disciplined (hprompt : Prompt waits) (c : PortCall) :
    (locked c).Disciplined (ffiConventions waits) := by
  cases c with
  | queueFrame h slot cb =>
      refine (guarded_disciplined waits _).bind fun resolved => ?_
      cases resolved with
      | error e => rfl
      | ok raw =>
          refine (guarded_disciplined waits _).bind fun found => ?_
          cases found with
          | none => rfl
          | some callback =>
              refine ⟨rfl, fun _ => ⟨⟨fun l hl => hl, False.elim⟩, fun patched => ?_⟩⟩
              cases patched with
              | none => exact ⟨rfl, fun _ => rfl⟩
              | some framePtr =>
                  refine ⟨⟨fun l hl => (by cases hl), fun hwaits => ?_⟩, fun rc => ⟨rfl, fun _ => rfl⟩⟩
                  exact absurd hwaits (hprompt.queue raw framePtr _)
  | _ => exact guarded_disciplined waits _

/-- The method calls no SDK function that waits. -/
def QuickCall (waits : SdkCall → Prop) (c : PortCall) : Prop :=
  (steps c).CallsOnly fun c => ¬ (ffiConventions waits).waits c

theorem locked_quick (hprompt : Prompt waits) {c : PortCall} (hquick : QuickCall waits c) :
    (locked c).CallsOnly (ffiConventions waits).Quick := by
  cases c with
  | queueFrame h slot cb =>
      have hresolve : (Atomic.resolveCamera h).CallsOnly fun c => ¬ (ffiConventions waits).waits c :=
        ⟨id, fun r => by cases r <;> trivial⟩
      refine (quick_guarded (K := ffiConventions waits) hresolve).bind fun resolved => ?_
      cases resolved with
      | error e => trivial
      | ok raw =>
          refine Prog.CallsOnly.bind (quick_guarded (K := ffiConventions waits) ⟨id, fun _ => trivial⟩)
            fun found => ?_
          cases found with
          | none => trivial
          | some callback =>
              refine ⟨trivial, fun _ => ⟨id, fun patched => ?_⟩⟩
              cases patched with
              | none => exact ⟨trivial, fun _ => trivial⟩
              | some framePtr =>
                  exact ⟨hprompt.queue raw framePtr _, fun _ => ⟨trivial, fun _ => trivial⟩⟩
  | _ => exact quick_guarded (K := ffiConventions waits) hquick

/-! ## What the threads do -/

/-- What the user closures do: programs over the port, which may panic. And what it does to give up the
reference of a table to one: nothing while there is another reference, and else what its destructor does,
with the mutexes that takes. A context may have the last reference; what `queue_frame`, `frame_revoke_all`
and `unregister_discovery` destroy with it is left out. -/
structure Closures where
  frame : FrameCallback → Frame → PortM (Exit Unit)
  discovery : DiscoveryCallback → DiscoveryEvent → PortM (Exit Unit)
  dropFrame : FrameCallback → Prog FfiLocking Unit
  dropDiscovery : DiscoveryCallback → Prog FfiLocking Unit

/-- The destructor of what an uninstall has taken out of its table. -/
def dropRemoved {α : Type} (drop : α → Prog FfiLocking Unit) : Option α → Prog FfiLocking Unit
  | none => pure ()
  | some callback => drop callback

/-- `uninstall_frame_callback`: the guard lives until the closure is gone. -/
def uninstallFrameCallback (closures : Closures) (id : FrameCallbackId) : Prog FfiLocking Unit := do
  lock .frameCallbacks
  let removed ← inside (.access (.getFrameCallback id))
  inside (.access (.removeFrameCallback id))
  dropRemoved closures.dropFrame removed
  unlock .frameCallbacks

/-- `uninstall_discovery_callback`, likewise. -/
def uninstallDiscoveryCallback (closures : Closures) (id : DiscoveryCallbackId) :
    Prog FfiLocking Unit := do
  lock .discoveryCallbacks
  let removed ← inside (.access (.getDiscoveryCallback id))
  inside (.access (.removeDiscoveryCallback id))
  dropRemoved closures.dropDiscovery removed
  unlock .discoveryCallbacks

/-- The method behind a port call, with its mutexes and the destructors it runs. -/
def Closures.locked (closures : Closures) : (c : PortCall) → Prog FfiLocking c.Resp
  | .uninstallFrameCallback id => Adapters.uninstallFrameCallback closures id
  | .uninstallDiscoveryCallback id => Adapters.uninstallDiscoveryCallback closures id
  | c => Adapters.locked c

/-- A destructor takes no mutex, uses no table and does not wait. -/
def Harmless (waits : SdkCall → Prop) : FfiLocking.Call → Prop
  | .call (.sdk c) => ¬ waits c
  | _ => False

/-- A harmless destructor leaves the mutex to its thread. -/
theorem harmless_keeps {α : Type} {drop : α → Prog FfiLocking Unit}
    (h : ∀ f, (drop f).CallsOnly (Harmless waits)) (removed : Option α) (l : Mutex) :
    (dropRemoved drop removed).Meets (lockDiscipline (ffiConventions waits)) (fun _ v => v = some l)
      (some l) := by
  have hkeeps : ∀ p : Prog FfiLocking Unit, p.CallsOnly (Harmless waits) →
      p.Meets (lockDiscipline (ffiConventions waits)) (fun _ v => v = some l) (some l) := by
    intro p hp
    induction p with
    | done a => rfl
    | call c k ih =>
        rcases c with l' | l' | c | c
        · exact hp.1.elim
        · exact hp.1.elim
        · exact ⟨⟨fun l' hl' => (by cases hl'), fun hwaits => absurd hwaits hp.1⟩, fun r => ih r (hp.2 r)⟩
        · exact hp.1.elim
  cases removed with
  | none => rfl
  | some f => exact hkeeps _ (h f)

theorem harmless_quick {α : Type} {drop : α → Prog FfiLocking Unit}
    (h : ∀ f, (drop f).CallsOnly (Harmless waits)) (removed : Option α) :
    (dropRemoved drop removed).CallsOnly (ffiConventions waits).Quick := by
  cases removed with
  | none => trivial
  | some f =>
      refine (h f).mono fun c hc => ?_
      rcases c with l | l | c | c
      · trivial
      · trivial
      · exact hc
      · exact hc.elim

/-- The destructors of the closures take no mutex and do not wait. -/
structure Closures.Harmless (waits : SdkCall → Prop) (closures : Closures) : Prop where
  frame : ∀ f, (closures.dropFrame f).CallsOnly (Adapters.Harmless waits)
  discovery : ∀ f, (closures.dropDiscovery f).CallsOnly (Adapters.Harmless waits)

/-- **With such destructors every method keeps the discipline.** -/
theorem Closures.Harmless.locked_disciplined {closures : Closures} (h : closures.Harmless waits)
    (hprompt : Prompt waits) (c : PortCall) :
    (closures.locked c).Disciplined (ffiConventions waits) := by
  -- the guard of the table is the one that is held
  have hget : ∀ {c : AtomicStep} {l : Mutex}, (∃ a, c = .access a) → (ffiGuard c = some l) →
      (lockDiscipline (ffiConventions waits)).pre (some l) (.call c) := by
    rintro c l ⟨a, rfl⟩ hl
    refine ⟨fun l' hl' => ?_, False.elim⟩
    have hl' : ffiGuard (.access a) = some l' := hl'
    exact hl.symm.trans hl'
  cases c with
  | uninstallFrameCallback cb =>
      refine ⟨rfl, fun _ => ⟨hget ⟨_, rfl⟩ rfl, fun removed => ⟨hget ⟨_, rfl⟩ rfl, fun _ => ?_⟩⟩⟩
      show (dropRemoved closures.dropFrame removed >>= fun _ => unlock .frameCallbacks).Meets _ _ _
      refine Prog.meets_bind.mpr ((harmless_keeps h.frame removed .frameCallbacks).mono ?_)
      rintro r v rfl
      exact ⟨rfl, fun _ => rfl⟩
  | uninstallDiscoveryCallback cb =>
      refine ⟨rfl, fun _ => ⟨hget ⟨_, rfl⟩ rfl, fun removed => ⟨hget ⟨_, rfl⟩ rfl, fun _ => ?_⟩⟩⟩
      show (dropRemoved closures.dropDiscovery removed >>= fun _ => unlock .discoveryCallbacks).Meets _ _ _
      refine Prog.meets_bind.mpr ((harmless_keeps h.discovery removed .discoveryCallbacks).mono ?_)
      rintro r v rfl
      exact ⟨rfl, fun _ => rfl⟩
  | _ => exact Adapters.locked_disciplined hprompt _

theorem Closures.Harmless.locked_quick {closures : Closures} (h : closures.Harmless waits)
    (hprompt : Prompt waits) {c : PortCall} (hquick : QuickCall waits c) :
    (closures.locked c).CallsOnly (ffiConventions waits).Quick := by
  cases c with
  | uninstallFrameCallback cb =>
      refine ⟨trivial, fun _ => ⟨id, fun removed => ⟨id, fun _ => ?_⟩⟩⟩
      exact (harmless_quick h.frame removed).bind fun _ => ⟨trivial, fun _ => trivial⟩
  | uninstallDiscoveryCallback cb =>
      refine ⟨trivial, fun _ => ⟨id, fun removed => ⟨id, fun _ => ?_⟩⟩⟩
      exact (harmless_quick h.discovery removed).bind fun _ => ⟨trivial, fun _ => trivial⟩
  | _ => exact Adapters.locked_quick hprompt hquick

/-- An operation of a thread: a program of a client, or a trampoline, with the memory it finds. -/
inductive Task where
  | client (p : PortM Unit)
  | frameCallback (mem : Memory) (hostTsNs : UInt64) (cameraHandle : VmbHandle) (framePtr : Nat)
  | discovery (heap : Heap) (handle : VmbHandle) (userContext : Nat)

/-- A call that leaves an operation: of the port, or of the SDK by a trampoline. -/
inductive ThreadCall where
  | port (c : PortCall)
  | sdk (c : SdkCall)

@[reducible] def ThreadCall.Resp : ThreadCall → Type
  | .port c => c.Resp
  | .sdk c => c.Resp

@[reducible] def ThreadCalls : Signature := ⟨ThreadCall, ThreadCall.Resp⟩

def callPort (c : PortCall) : Prog ThreadCalls c.Resp :=
  Prog.call (S := ThreadCalls) (.port c) Prog.done

def callSdk (c : SdkCall) : Prog ThreadCalls c.Resp :=
  Prog.call (S := ThreadCalls) (.sdk c) Prog.done

/-- What leaves the frame trampoline. -/
def leaveFrame (closures : Closures) (hostTsNs : UInt64) : (c : Upcall) → Prog ThreadCalls c.Resp
  | .systemTime => pure hostTsNs
  | .invoke f frame => (closures.frame f frame).through callPort
  | .vmbCaptureFrameQueue handle frame callback =>
    callSdk (.vmbCaptureFrameQueue handle frame callback)
  | .dangling _ => pure ()

/-- The calls of an operation. -/
def Task.program (closures : Closures) : Task → Prog ThreadCalls Unit
  | .client p => p.through callPort
  | .frameCallback mem hostTsNs handle ptr =>
    (frameCallbackTrampoline mem handle ptr).through (leaveFrame closures hostTsNs)
  | .discovery heap handle userContext => do
    match ← (discoveryTrampoline heap handle userContext).through callSdk with
    | .invoked f event => do
      let _ ← (closures.discovery f event).through callPort
      pure ()
    | _ => pure ()

/-- A trampoline calls the SDK with no mutex held. -/
def ThreadCall.locked (closures : Closures) : (c : ThreadCall) → Prog FfiLocking c.Resp
  | .port c => closures.locked c
  | .sdk c => inside (.sdk c)

/-- An operation with its mutexes. -/
def Task.perform (closures : Closures) (task : Task) (_ : Unit) : Prog FfiLocking (Unit × Unit) := do
  (task.program closures).through (ThreadCall.locked closures)
  pure ((), ())

theorem perform_disciplined (hprompt : Prompt waits) {closures : Closures} (h : closures.Harmless waits)
    (task : Task) (x : Unit) : (task.perform closures x).Disciplined (ffiConventions waits) := by
  refine Prog.Disciplined.bind (Prog.Disciplined.through fun c => ?_) fun _ => rfl
  cases c with
  | port c => exact h.locked_disciplined hprompt c
  | sdk c => exact ⟨⟨fun l hl => (by cases hl), fun _ => rfl⟩, fun _ => rfl⟩

/-- The call does not wait for the callbacks to end. -/
def ThreadCall.Quick (waits : SdkCall → Prop) : ThreadCall → Prop
  | .port c => QuickCall waits c
  | .sdk c => ¬ waits c

/-- The operation does not wait for the callbacks to end. -/
def Task.Calm (waits : SdkCall → Prop) (closures : Closures) (task : Task) : Prop :=
  (task.program closures).CallsOnly (ThreadCall.Quick waits)

theorem perform_quick (hprompt : Prompt waits) {closures : Closures} (h : closures.Harmless waits)
    {task : Task} (x : Unit) (hcalm : task.Calm waits closures) :
    (task.perform closures x).CallsOnly (ffiConventions waits).Quick := by
  refine Prog.CallsOnly.bind (hcalm.through fun c hc => ?_) fun _ => trivial
  cases c with
  | port c => exact h.locked_quick hprompt hc
  | sdk c => exact ⟨hc, fun _ => trivial⟩

/-! ## The trampolines -/

/-- The closures call no method that waits. -/
structure Closures.Calm (waits : SdkCall → Prop) (closures : Closures) : Prop where
  frame : ∀ f frame, (closures.frame f frame).CallsOnly (QuickCall waits)
  discovery : ∀ f event, (closures.discovery f event).CallsOnly (QuickCall waits)

theorem calm_program {α : Type} {p : PortM α} (h : p.CallsOnly (QuickCall waits)) :
    (p.through callPort).CallsOnly (ThreadCall.Quick waits) :=
  h.through fun _ hc => ⟨hc, fun _ => trivial⟩

/-- The operation is a trampoline. -/
def Task.Trampoline : Task → Prop
  | .client _ => False
  | _ => True

/-- **The trampolines are calm**, if the closures are: they do not wait themselves. -/
theorem calm_trampoline (hprompt : Prompt waits) {closures : Closures} (h : closures.Calm waits)
    {task : Task} (htask : task.Trampoline) : task.Calm waits closures := by
  rcases task with p | ⟨mem, hostTsNs, handle, ptr⟩ | ⟨heap, handle, ctx⟩
  · exact htask.elim
  · refine Prog.CallsOnly.through (Prog.callsOnly_true _) fun c _ => ?_
    cases c with
    | systemTime => trivial
    | invoke f frame => exact calm_program (h.frame f frame)
    | vmbCaptureFrameQueue handle frame callback =>
        exact ⟨hprompt.queue handle frame callback, fun _ => trivial⟩
    | dangling ptr => trivial
  · have htrampoline := (discoveryTrampoline_reads heap handle ctx).mono fun c => hprompt.reads
    refine Prog.CallsOnly.bind (htrampoline.through fun c hc => ⟨hc, fun _ => trivial⟩)
      fun delivery => ?_
    cases delivery with
    | invoked f event => exact (calm_program (h.discovery f event)).bind fun _ => trivial
    | ignored => trivial
    | dangling => trivial
    | panicked m => trivial

/-! ## Runs -/

section Runs

variable {ι τ : Type} [DecidableEq ι]

/-- No thread has begun anything, and every mutex is free. -/
def ffiThreads (s : FfiState) (t : τ) : Pool FfiLocking ((FfiState × τ) × Finset Mutex) ι Unit Unit :=
  Pool.init ((s, t), ∅) ()

/-- A schedule of threads that use one adapter. -/
abbrev ffiRun (api : VmbApi τ) (closures : Closures) (s : FfiState) (t : τ)
    (moves : List (Move ι Task)) : Pool FfiLocking ((FfiState × τ) × Finset Mutex) ι Unit Unit :=
  (ffiThreads s t).run (stepMachine api).locking (Task.perform closures) moves

/-- No move of the schedule has to wait: the mutex it takes is free, and the SDK function it calls does
not wait for a callback that is running. The SDK runs the trampolines on the threads `worker`. -/
abbrev FfiLegal (waits : SdkCall → Prop) (worker : ι → Prop) (api : VmbApi τ) (closures : Closures)
    (s : FfiState) (t : τ) (moves : List (Move ι Task)) : Prop :=
  (ffiThreads s t).Along (stepMachine api).locking (Task.perform closures)
    (Legal (ffiConventions waits) worker Task.Trampoline) moves

/-- **No schedule of the production adapter gets stuck**, if the closures do not wait and their destructors
take no mutex. Whatever client threads and SDK threads have done so far, steps that do not have to wait
finish every operation and free every mutex. -/
theorem ffi_quiesces [Finite ι] (hprompt : Prompt waits) (worker : ι → Prop) (api : VmbApi τ)
    {closures : Closures} (hcalm : closures.Calm waits) (hdrop : closures.Harmless waits)
    (s : FfiState) (t : τ) (moves : List (Move ι Task)) (hlegal : FfiLegal waits worker api closures s t moves) :
    ∃ ts : List ι, FfiLegal waits worker api closures s t (moves ++ ts.map .step) ∧
      (ffiRun api closures s t (moves ++ ts.map .step)).shared.2 = ∅ ∧
      ∀ u, ((ffiRun api closures s t (moves ++ ts.map .step)).threads u).running = none := by
  have hquick : ∀ (task : Task) (x : Unit), task.Trampoline →
      (task.perform closures x).CallsOnly (ffiConventions waits).Quick :=
    fun task x htask => perform_quick hprompt hdrop x (calm_trampoline hprompt hcalm htask)
  have hrun := Locked.init.run (perform_disciplined hprompt hdrop) hquick hlegal
  obtain ⟨P', ⟨ts, halong, rfl⟩, hfree, hrest⟩ :=
    hrun.quiesces (perform_disciplined hprompt hdrop) hquick
  refine ⟨ts, Pool.along_append hlegal halong, ?_⟩
  rw [ffiRun, Pool.run_run]
  exact ⟨hfree, hrest⟩

/-- The SDK functions the source says wait for callbacks that are running. -/
def blocks : SdkCall → Prop
  | .vmbCaptureEnd _ => True
  | .vmbFrameRevokeAll _ => True
  | .vmbFeatureInvalidationUnregister _ _ _ => True
  | _ => False

theorem prompt_blocks : Prompt blocks where
  queue _ _ _ := id
  reads {c} hreads hblocks := by cases c <;> first | exact hreads | exact hblocks

/-- A client closes a camera and holds `cameras`. Meanwhile the SDK delivers a frame, whose closure
flushes the queue of that camera. -/
def flushing : Closures where
  frame _ _ := do
    port (.captureQueueFlush ⟨⟨1, nonZero_one⟩⟩)
    pure (.returned ())
  discovery _ _ := pure (.returned ())
  dropFrame _ := pure ()
  dropDiscovery _ := pure ()

def filled : TrampolineContext := ⟨{ context0 := 8 }, ⟨9, 4⟩, some ⟨7⟩⟩

def contention : List (Move Bool Task) :=
  [.invoke false (.client (port (.closeCamera ⟨⟨1, nonZero_one⟩⟩))), .step false,
    .invoke true (.frameCallback ⟨fun _ => some filled, fun _ => 0⟩ 5 3 8)]

theorem calm_flushing : flushing.Calm blocks := by
  refine ⟨fun f frame => ⟨⟨id, fun found => ?_⟩, fun _ => trivial⟩, fun f event => trivial⟩
  cases found with
  | none => trivial
  | some raw => exact ⟨id, fun _ => trivial⟩

theorem harmless_flushing : flushing.Harmless blocks := ⟨fun _ => trivial, fun _ => trivial⟩

theorem legal_contention : FfiLegal blocks (· = true) mockApi flushing .new 0 contention := by
  refine Pool.along_cons.mpr ⟨fun h => (by cases h), Pool.along_cons.mpr ⟨⟨?_, ?_⟩,
    Pool.along_cons.mpr ⟨fun _ => trivial, fun before mv hpre => ?_⟩⟩⟩
  · intro l _ hl
    exact absurd hl (Finset.notMem_empty l)
  · rintro c ⟨k, hk⟩
    cases hk
  · exact absurd (List.prefix_nil.mp hpre) (by simp)

theorem ffi_quiesces_contention :
    ∃ ts : List Bool, FfiLegal blocks (· = true) mockApi flushing .new 0 (contention ++ ts.map .step) ∧
      (ffiRun mockApi flushing .new 0 (contention ++ ts.map .step)).shared.2 = ∅ ∧
      ∀ u, ((ffiRun mockApi flushing .new 0 (contention ++ ts.map .step)).threads u).running = none :=
  ffi_quiesces prompt_blocks (· = true) mockApi calm_flushing harmless_flushing .new 0 contention
    legal_contention

end Runs

end Vmb.Adapters

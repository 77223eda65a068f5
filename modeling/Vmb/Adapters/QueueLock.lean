/-
# Vmb.Adapters.QueueLock -- why `queue_frame` keeps `frames` locked

`queue_frame` patches a context in the table of frames and gives its address to the SDK, and
`frame_revoke_all` on any other thread clears the table. `queue_frame` holds the mutex of the table
from the patch to the end of the SDK call, so in every schedule the pointer it queues leads to a
context that is in the table and stays there during the call (`queued_alive`). The steps alone
(`Vmb.Ffi.Atomic`) do not promise this.

The closures have no destructors here (`locked`), so giving up a reference to one does nothing.
-/
import Vmb.Adapters.FfiLocks
import Vmb.Ffi.Footprint

namespace Vmb.Adapters

open Vmb.Lib Vmb.Core Vmb.Sdk Vmb.Ffi

/-! ## Threads that use the port -/

variable {ι τ : Type} [DecidableEq ι]

/-- A program over the port, on a client thread or inside a closure. -/
def performLocked (p : PortM Unit) (_ : Unit) : Prog FfiLocking (Unit × Unit) := do
  p.through locked
  pure ((), ())

/-- A schedule of threads that use the port. -/
abbrev portRun (api : VmbApi τ) (s : FfiState) (t : τ) (moves : List (Move ι (PortM Unit))) :
    Pool FfiLocking ((FfiState × τ) × Finset Mutex) ι Unit Unit :=
  (ffiThreads s t).run (stepMachine api).locking performLocked moves

/-- Only the mutexes are waited for. -/
abbrev noWaits : Conventions Steps Mutex := ffiConventions fun _ => False

/-- Every mutex is free when a move of the schedule takes it. -/
abbrev PortLegal (api : VmbApi τ) (s : FfiState) (t : τ) (moves : List (Move ι (PortM Unit))) : Prop :=
  (ffiThreads s t).Along (stepMachine api).locking performLocked
    (Legal noWaits (fun _ => False) fun _ => False) moves

omit [DecidableEq ι] in
theorem legal_step_iff {P : Pool FfiLocking ((FfiState × τ) × Finset Mutex) ι Unit Unit} {t : ι} :
    Legal noWaits (fun _ => False) (fun _ : PortM Unit => False) P (.step t) ↔
      ∀ l ∈ P.wants t, l ∉ P.shared.2 := by
  constructor
  · intro h l hl
    exact h.1 l (Pool.mem_wants_iff.mp hl)
  · refine fun h => ⟨fun l hl => h l (Pool.mem_wants_iff.mpr hl), fun c _ hwaits => ?_⟩
    cases c <;> exact hwaits.elim

instance (P : Pool FfiLocking ((FfiState × τ) × Finset Mutex) ι Unit Unit) :
    ∀ mv, Decidable (Legal noWaits (fun _ => False) (fun _ : PortM Unit => False) P mv)
  | .invoke _ _ => isTrue fun h => h.elim
  | .step _ => decidable_of_iff _ legal_step_iff.symm

/-! ## The pointer of a patch -/

/-- A pointer goes to `VmbCaptureFrameQueue` right after the patch that answered it. The view is the
pointer, while `frames` is still locked. -/
def patching : Contract FfiLocking (Option Nat) where
  pre v c :=
    match c with
    | .call (.sdk (.vmbCaptureFrameQueue _ ptr _)) => v = some ptr
    | .call (.sdk _) => v = none
    | .call (.access _) => v = none
    | .lock _ => v = none
    | .unlock _ => True
  next v c r :=
    match c, r with
    | .call (.access (.patchFrame _ _)), r => r
    | .unlock _, _ => none
    | _, _ => v

/-- A step the contract is not about. -/
def Unpatched : AtomicStep → Prop
  | .sdk (.vmbCaptureFrameQueue _ _ _) => False
  | .access (.patchFrame _ _) => False
  | _ => True

theorem patching_call {c : AtomicStep} (hc : Unpatched c) (v : Option Nat) (hv : v = none) :
    patching.pre v (.call c) ∧ ∀ r, patching.next v (.call c) r = v := by
  subst hv
  rcases c with c | c
  · cases c
    case vmbCaptureFrameQueue => exact hc.elim
    all_goals exact ⟨rfl, fun _ => rfl⟩
  · cases c
    case patchFrame => exact hc.elim
    all_goals exact ⟨rfl, fun _ => rfl⟩

theorem guarded_patching {α : Type} {p : Prog Steps α} (h : p.CallsOnly Unpatched) :
    (p.guarded ffiGuard).Meets patching (fun _ v => v = none) none := by
  induction p with
  | done a => rfl
  | call c k ih =>
      obtain ⟨hpre, hnext⟩ := patching_call h.1 none rfl
      rw [Prog.guarded]
      cases ffiGuard c with
      | none =>
          refine ⟨hpre, fun r => ?_⟩
          rw [hnext r]
          exact ih r (h.2 r)
      | some l =>
          refine ⟨rfl, fun _ => ⟨hpre, fun r => ⟨trivial, fun _ => ih r (h.2 r)⟩⟩⟩

theorem locked_patching (c : PortCall) :
    (locked c).Meets patching (fun _ v => v = none) none := by
  cases c with
  | queueFrame h slot cb =>
      have hresolve : ((Atomic.resolveCamera h).guarded ffiGuard).Meets patching (fun _ v => v = none)
          none := guarded_patching ⟨trivial, fun r => by cases r <;> trivial⟩
      refine Prog.meets_bind.mpr (hresolve.mono ?_)
      rintro resolved v rfl
      cases resolved with
      | error e => rfl
      | ok raw =>
          have hget : ((access (.getFrameCallback cb)).guarded ffiGuard).Meets patching
              (fun _ v => v = none) none := guarded_patching ⟨trivial, fun _ => trivial⟩
          refine Prog.meets_bind.mpr (hget.mono ?_)
          rintro found v rfl
          cases found with
          | none => rfl
          | some callback =>
              refine ⟨rfl, fun _ => ⟨rfl, fun patched => ?_⟩⟩
              cases patched with
              | none => exact ⟨trivial, fun _ => rfl⟩
              | some framePtr => exact ⟨rfl, fun rc => ⟨trivial, fun _ => rfl⟩⟩
  | _ =>
      refine guarded_patching ((steps_makes _).mono fun step hstep => ?_)
      cases hstep <;> trivial

theorem performLocked_patching (p : PortM Unit) (x : Unit) :
    (performLocked p x).Meets patching (fun _ v => v = none) none := by
  unfold performLocked
  refine Prog.meets_bind.mpr ?_
  induction p with
  | done a => rfl
  | call c k ih =>
      refine Prog.meets_bind.mpr ((locked_patching c).mono ?_)
      rintro r v rfl
      exact ih r

theorem performLocked_disciplined (p : PortM Unit) (x : Unit) :
    (performLocked p x).Disciplined noWaits :=
  Prog.Disciplined.bind (Prog.Disciplined.through
    (locked_disciplined ⟨fun _ _ _ => id, fun _ => id⟩)) fun _ => rfl

/-! ## Every schedule -/

/-- The frame at `ptr` is in the table, with a closure and with its own address in `context[0]`. -/
def Alive (s : FfiState) (ptr : Nat) : Prop :=
  ∃ slot ctx, s.frames.lookup slot = some ctx ∧ ctx.addr = ptr ∧ ctx.val.frame.context0 = ptr ∧
    ctx.val.callback.isSome

theorem alive_patchFrame {s : FfiState} {slot : FrameSlotId} {callback : FrameCallback} {ptr : Nat}
    (h : (s.access (.patchFrame slot callback)).1 = some ptr) :
    Alive (s.access (.patchFrame slot callback)).2 ptr := by
  dsimp only [FfiState.access] at h ⊢
  rcases hlookup : s.frames.lookup slot with - | ctx
  · rw [hlookup] at h
    cases h
  · rw [hlookup] at h
    cases h
    exact ⟨slot, _, Finmap.lookup_insert _, rfl, rfl, rfl⟩

/-- An access under another lock leaves the table of frames as it is. -/
theorem frames_stepMachine (api : VmbApi τ) (x : FfiState × τ) (c : AtomicStep)
    (h : ffiGuard c ≠ some .frames) : (stepMachine api x c).2.1.frames = x.1.frames := by
  rcases c with c | c
  · rfl
  · cases c
    case insertFrame => exact absurd rfl h
    case patchFrame => exact absurd rfl h
    case clearFrames => exact absurd rfl h
    all_goals rfl

/-- The mutexes are kept apart, every thread keeps `patching`, and a pointer that has been patched is
alive under the lock of its thread. -/
structure Guarded (P : Pool FfiLocking ((FfiState × τ) × Finset Mutex) ι Unit Unit) : Prop where
  locked : Locked noWaits (fun _ => False) P
  sound : P.Sound patching none (fun _ _ => True) (fun _ v => v = none) fun _ => True
  alive : ∀ t ptr, Pool.view patching none P.log t = some ptr →
    P.lockOf noWaits t = some .frames ∧ Alive P.shared.1.1 ptr

theorem Guarded.init (s : FfiState) (t : τ) :
    Guarded (ffiThreads s t : Pool FfiLocking ((FfiState × τ) × Finset Mutex) ι Unit Unit) where
  locked := Locked.init
  sound := Pool.sound_init rfl
  alive u ptr hptr := by cases hptr

variable {P : Pool FfiLocking ((FfiState × τ) × Finset Mutex) ι Unit Unit} {api : VmbApi τ}

/-- The pointer of the thread that makes the step. -/
theorem Guarded.step_self (h : Guarded P) {t : ι} {c : FfiLocking.Call} (hcalls : P.Calls t c)
    {ptr : Nat} (hptr : patching.next (Pool.view patching none P.log t) c
      ((stepMachine api).locking P.shared c).1 = some ptr) :
    (lockDiscipline noWaits).next (P.lockOf noWaits t) c ((stepMachine api).locking P.shared c).1 =
        some .frames ∧
      Alive ((stepMachine api).locking P.shared c).2.1.1 ptr := by
  have hpre := h.sound.pre hcalls
  rcases c with l | l | c | c
  · -- no mutex is taken between the patch and the end of the method
    have hnone : Pool.view patching none P.log t = none := hpre
    rw [hnone] at hptr
    cases hptr
  · cases hptr
  · exact h.alive t ptr hptr
  · have hnone : Pool.view patching none P.log t = none := hpre
    have hlock := (h.locked.sound.pre hcalls).1
    rw [hnone] at hptr
    cases c
    case patchFrame slot callback => exact ⟨hlock _ rfl, alive_patchFrame hptr⟩
    all_goals cases hptr

theorem Guarded.move (h : Guarded P) {mv : Move ι (PortM Unit)}
    (hlegal : Legal noWaits (fun _ => False) (fun _ => False) P mv) :
    Guarded (P.move (stepMachine api).locking performLocked mv) := by
  refine ⟨h.locked.move hlegal performLocked_disciplined fun _ _ hcalm => hcalm.elim, ?_, ?_⟩
  · refine h.sound.move mv (fun t p x v _ hv => ?_) fun _ _ _ _ => trivial
    subst hv
    exact (performLocked_patching p x).ensures.mono fun _ _ hv => ⟨hv, trivial⟩
  · intro u ptr hptr
    rcases P.move_cases (stepMachine api).locking performLocked mv with
      ⟨hshared, hlog⟩ | ⟨t, c, rfl, hcalls, hshared, hlog⟩
    · unfold Pool.lockOf
      rw [hlog] at hptr ⊢
      rw [hshared]
      exact h.alive u ptr hptr
    · have hlocks := lockOf_append (K := noWaits) hlog
      rw [hlog, Pool.view_append] at hptr
      rcases eq_or_ne u t with rfl | hne
      · rw [Function.update_self] at hptr
        rw [hlocks, Function.update_self, hshared]
        exact h.step_self hcalls hptr
      · rw [Function.update_of_ne hne] at hptr
        obtain ⟨hlock, hframe⟩ := h.alive u ptr hptr
        have hframes : (P.move (stepMachine api).locking performLocked (.step t)).shared.1.1.frames =
            P.shared.1.1.frames :=
          h.locked.stable hlock (fun x => x.1.frames) (frames_stepMachine api)
            fun hmv => hne (Move.step.inj hmv).symm
        rw [hlocks, Function.update_of_ne hne]
        refine ⟨hlock, ?_⟩
        unfold Alive
        rw [hframes]
        exact hframe

/-- **A queued pointer is alive**: when a thread is about to queue a frame, the frame is in the table,
and nothing the other threads do changes the table before the call has ended. The threads run programs over
the port, with closures that have no destructors. -/
theorem queued_alive (api : VmbApi τ) (s : FfiState) (t : τ) (moves : List (Move ι (PortM Unit)))
    (hlegal : PortLegal api s t moves) {u : ι} {raw ptr : Nat} {trampoline : Trampoline}
    (hcalls : (portRun api s t moves).Calls u
      (.call (.sdk (.vmbCaptureFrameQueue raw ptr trampoline)))) :
    Alive (portRun api s t moves).shared.1.1 ptr ∧
      ∀ mv, mv ≠ .step u → (portRun api s t (moves ++ [mv])).shared.1.1.frames =
        (portRun api s t moves).shared.1.1.frames := by
  have hrun : Guarded (portRun api s t moves) :=
    Pool.run_invariant Guarded (Legal noWaits (fun _ => False) fun _ => False)
      (fun _ _ h hmv => h.move hmv) _ moves (Guarded.init s t) hlegal
  have hptr : Pool.view patching none (portRun api s t moves).log u = some ptr :=
    hrun.sound.pre hcalls
  obtain ⟨hlock, halive⟩ := hrun.alive u ptr hptr
  refine ⟨halive, fun mv hmv => ?_⟩
  rw [portRun, Pool.run_append]
  exact hrun.locked.stable hlock (fun x => x.1.frames) (frames_stepMachine api) hmv

/-- A camera with a frame and a closure for it. -/
def announced : FfiState :=
  { FfiState.new with
    cameras := Finmap.singleton ⟨⟨1, nonZero_one⟩⟩ 5
    frames := Finmap.singleton ⟨2⟩ ⟨8, ⟨{ context0 := 8 }, ⟨9, 4⟩, none⟩⟩
    frameCallbacks := Finmap.singleton ⟨3⟩ ⟨7⟩ }

/-- One thread is about to queue the frame, and another waits for `frames` to revoke all frames. -/
def revoking : List (Move Bool (PortM Unit)) :=
  .invoke false (do let _ ← port (.queueFrame ⟨⟨1, nonZero_one⟩⟩ ⟨2⟩ ⟨3⟩)) ::
    List.replicate 8 (.step false) ++
    .invoke true (port (.frameRevokeAll ⟨⟨1, nonZero_one⟩⟩)) :: List.replicate 4 (.step true)

theorem queued_alive_revoking :
    Alive (portRun mockApi announced 0 revoking).shared.1.1 8 ∧
      ∀ mv, mv ≠ .step false → (portRun mockApi announced 0 (revoking ++ [mv])).shared.1.1.frames =
        (portRun mockApi announced 0 revoking).shared.1.1.frames := by
  have hcalls : (portRun mockApi announced 0 revoking).Calls false
      (.call (.sdk (.vmbCaptureFrameQueue 5 8 .frameCallbackTrampoline))) := ⟨_, rfl⟩
  exact queued_alive mockApi announced 0 revoking (by decide +kernel) hcalls

end Vmb.Adapters

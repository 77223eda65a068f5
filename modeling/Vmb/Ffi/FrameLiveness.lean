/-
# Vmb.Ffi.FrameLiveness -- frame pointers at the SDK and the table of contexts

The SDK holds a frame pointer from a successful `VmbFrameAnnounce` until a successful
`VmbFrameRevokeAll` or `VmbCameraClose` of the same raw handle. The port documents
`frame_revoke_all` as revoking the frames of one camera, and the adapter frees the contexts behind
the pointers there. It frees those of every camera: the table `frames` has no owner column and is
cleared. `always_framesLive_iff` says exactly which runs keep every held pointer alive.
-/
import Vmb.Core.World
import Vmb.Ffi.Step
import Vmb.Lib.Since
import Vmb.Lib.Tracks

namespace Vmb.Ffi

open Vmb.Lib Vmb.Core Vmb.Sdk

/-! ## What the SDK holds -/

/-- The SDK accepts the frame pointer `ptr` for the camera `raw`. -/
def takes (raw : VmbHandle) (ptr : Nat) : Event VmbC → Bool
  | ⟨.vmbFrameAnnounce raw' ptr', rc⟩ => raw' = raw ∧ ptr' = ptr ∧ rc = 0
  | _ => false

/-- The SDK gives up the frame pointers of the camera `raw`. -/
def releases (raw : VmbHandle) : Event VmbC → Bool
  | ⟨.vmbFrameRevokeAll raw', rc⟩ => raw' = raw ∧ rc = 0
  | ⟨.vmbCameraClose raw', rc⟩ => raw' = raw ∧ rc = 0
  | _ => false

/-- After the SDK calls of `log`, the SDK holds the frame pointer `ptr` of the camera `raw`. -/
def Holds (log : List (Event VmbC)) (raw : VmbHandle) (ptr : Nat) : Prop :=
  Since (takes raw ptr ·) (releases raw ·) log

instance (log : List (Event VmbC)) (raw : VmbHandle) (ptr : Nat) : Decidable (Holds log raw ptr) :=
  inferInstanceAs (Decidable (Since _ _ _))

/-- SDK calls that announce nothing give the SDK no new pointer. -/
theorem Holds.of_append {log evs : List (Event VmbC)} {raw : VmbHandle} {ptr : Nat}
    (h : Holds (log ++ evs) raw ptr) (hevs : ∀ e ∈ evs, takes raw ptr e = false) :
    Holds log raw ptr :=
  Since.of_append (fun e he => by simp [hevs e he]) h

theorem takes_eq_false_of_quiet {e : Event VmbC} (h : Quiet e.call) (raw : VmbHandle) (ptr : Nat) :
    takes raw ptr e = false := by
  rcases e with ⟨c, r⟩
  cases c <;> first | rfl | exact absurd h id

/-! ## The invariant -/

variable {τ : Type}

/-- Every frame pointer the SDK holds is the address of a context that is still in `frames`. -/
def FramesLive (s : LoggedState τ) : Prop :=
  ∀ raw ptr, Holds s.2.2 raw ptr → ∃ slot box, s.1.frames.lookup slot = some box ∧ box.addr = ptr

/-- The contexts in `frames` are distinct allocations. -/
structure FramesOk (s : FfiState) : Prop where
  lt_brk : ∀ slot box, s.frames.lookup slot = some box → box.addr < s.heap.brk
  injective : ∀ slot slot' box box', s.frames.lookup slot = some box →
    s.frames.lookup slot' = some box' → box.addr = box'.addr → slot = slot'

theorem announcedBox_addr (s : FfiState) (size : UInt32) :
    (announcedBox s size).addr = s.heap.brk + max size.toNat 1 := rfl

theorem announcedHeap_brk (s : FfiState) (size : UInt32) :
    (announcedHeap s size).brk = s.heap.brk + max size.toNat 1 + 1 := rfl

/-- Memory is only allocated. -/
theorem Step.brk_le {s s' : FfiState} {c : PortCall} {evs : List (Event VmbC)} {r : c.Resp}
    (h : Step s c evs r s') : s.heap.brk ≤ s'.heap.brk := by
  cases h <;>
    simp [announcedHeap_brk, FfiState.fromRaw, FfiState.intoRaw, FfiState.alloc,
      FfiState.installFrameCallback, FfiState.uninstallFrameCallback, FfiState.nextU64,
      FfiState.installDiscoveryCallback, FfiState.uninstallDiscoveryCallback, Nat.add_assoc]

/-- A table whose contexts are where old ones were keeps the contexts distinct. -/
theorem FramesOk.of_lookup {s s' : FfiState} (h : FramesOk s) (hbrk : s.heap.brk ≤ s'.heap.brk)
    (hold : ∀ slot box', s'.frames.lookup slot = some box' →
      ∃ box, s.frames.lookup slot = some box ∧ box'.addr = box.addr) : FramesOk s' where
  lt_brk slot box' hb := by
    obtain ⟨box, hb, haddr⟩ := hold slot box' hb
    rw [haddr]
    exact Nat.lt_of_lt_of_le (h.lt_brk slot box hb) hbrk
  injective slot₁ slot₂ box₁ box₂ hb₁ hb₂ haddr := by
    obtain ⟨box₁', hb₁', haddr₁⟩ := hold slot₁ box₁ hb₁
    obtain ⟨box₂', hb₂', haddr₂⟩ := hold slot₂ box₂ hb₂
    apply h.injective slot₁ slot₂ box₁' box₂' hb₁' hb₂'
    omega

/-- A change of the heap and of nothing in `frames` keeps the contexts distinct. -/
theorem FramesOk.of_frames_eq {s s' : FfiState} (h : FramesOk s) (hframes : s'.frames = s.frames)
    (hbrk : s.heap.brk ≤ s'.heap.brk) : FramesOk s' := by
  refine h.of_lookup hbrk fun slot box hb => ?_
  rw [hframes] at hb
  exact ⟨box, hb, rfl⟩

/-- The context of an announcement is new. -/
theorem FramesOk.lt_announcedBox {s : FfiState} (h : FramesOk s) (size : UInt32) {slot : FrameSlotId}
    {box : Box TrampolineContext} (hb : s.frames.lookup slot = some box) :
    box.addr < (announcedBox s size).addr := by
  have hlt := h.lt_brk slot box hb
  rw [announcedBox_addr]
  omega

/-- Announcing a frame keeps the contexts distinct, whatever slot it gets. -/
theorem FramesOk.announced {s s' : FfiState} (h : FramesOk s) {slot : FrameSlotId} {size : UInt32}
    (hframes : s'.frames = s.frames.insert slot (announcedBox s size))
    (hbrk : s'.heap.brk = (announcedHeap s size).brk) : FramesOk s' where
  lt_brk slot' box hb := by
    have hnew : (announcedBox s size).addr < s'.heap.brk := by
      rw [hbrk, announcedHeap_brk, announcedBox_addr]
      omega
    rw [hframes] at hb
    rcases lookup_insert_eq_some.mp hb with ⟨-, rfl⟩ | ⟨-, hb⟩
    · exact hnew
    · exact Nat.lt_trans (h.lt_announcedBox size hb) hnew
  injective slot₁ slot₂ box₁ box₂ hb₁ hb₂ haddr := by
    rw [hframes] at hb₁ hb₂
    rcases lookup_insert_eq_some.mp hb₁ with ⟨hslot₁, hbox₁⟩ | ⟨-, hb₁⟩ <;>
      rcases lookup_insert_eq_some.mp hb₂ with ⟨hslot₂, hbox₂⟩ | ⟨-, hb₂⟩
    · exact hslot₁.trans hslot₂.symm
    · have hlt := h.lt_announcedBox size hb₂
      rw [hbox₁] at hlt
      omega
    · have hlt := h.lt_announcedBox size hb₁
      rw [hbox₂] at hlt
      omega
    · exact h.injective slot₁ slot₂ box₁ box₂ hb₁ hb₂ haddr

/-- **Every port call keeps the contexts distinct.** -/
theorem Step.framesOk {s s' : FfiState} {c : PortCall} {evs : List (Event VmbC)} {r : c.Resp}
    (h : Step s c evs r s') (hs : FramesOk s) : FramesOk s' := by
  have hbrk := h.brk_le
  cases h with
  | announced h size raw hraw => exact hs.announced rfl rfl
  | queued h slot cb raw f box rc hraw hcb hslot =>
      refine hs.of_lookup hbrk fun slot' box' hb => ?_
      rcases lookup_insert_eq_some.mp hb with ⟨rfl, rfl⟩ | ⟨-, hb⟩
      · exact ⟨box, hslot, rfl⟩
      · exact ⟨box', hb, rfl⟩
  | revoked h raw rc hraw =>
      refine hs.of_lookup hbrk fun slot box hb => ?_
      simp at hb
  | _ => exact hs.of_frames_eq rfl hbrk

/-! ## The step lemma -/

/-- `VmbFrameRevokeAll` and `VmbCameraClose` always succeed. -/
def TeardownSucceeds (api : VmbApi τ) : Prop :=
  ∀ t raw, (api t (.vmbFrameRevokeAll raw)).1 = 0 ∧ (api t (.vmbCameraClose raw)).1 = 0

/-- The port call takes no context away from the SDK: a `frame_revoke_all` of an open camera is made
while the SDK holds frames of that camera only, and an accepted announcement does not get the slot id
of a frame the SDK holds. -/
def SparesFrames (s : LoggedState τ) : Event Port → Prop
  | ⟨.frameRevokeAll h, _⟩ => ∀ raw raw' ptr, s.1.cameras.lookup h = some raw →
      Holds s.2.2 raw' ptr → raw' = raw
  | ⟨.announceFrame _ _, .ok slot⟩ => ∀ box raw, s.1.frames.lookup slot = some box →
      ¬ Holds s.2.2 raw box.addr
  | _ => True

/-- The frame pointer of an announcement. -/
def announcedAt : Event VmbC → Option (VmbHandle × Nat)
  | ⟨.vmbFrameAnnounce raw ptr, _⟩ => some (raw, ptr)
  | _ => none

/-- The frames the SDK holds have been announced. -/
theorem Holds.mem_announced {log : List (Event VmbC)} {raw : VmbHandle} {ptr : Nat}
    (h : Holds log raw ptr) : (raw, ptr) ∈ log.filterMap announcedAt := by
  obtain ⟨⟨c, r⟩, he, htakes⟩ := Since.exists_mem h
  refine List.mem_filterMap.mpr ⟨_, he, ?_⟩
  cases c
  case vmbFrameAnnounce raw' ptr' =>
    simp only [takes, decide_eq_true_eq] at htakes
    obtain ⟨rfl, rfl, -⟩ := htakes
    rfl
  all_goals cases htakes

/-- The condition, asked of the frames that have been announced. -/
def sparesFrames (s : LoggedState τ) : Event Port → Bool
  | ⟨.frameRevokeAll h, _⟩ => (s.2.2.filterMap announcedAt).all fun x =>
      Holds s.2.2 x.1 x.2 → ∀ raw ∈ s.1.cameras.lookup h, x.1 = raw
  | ⟨.announceFrame _ _, .ok slot⟩ => (s.2.2.filterMap announcedAt).all fun x =>
      Holds s.2.2 x.1 x.2 → ∀ box ∈ s.1.frames.lookup slot, box.addr ≠ x.2
  | _ => true

theorem sparesFrames_iff {s : LoggedState τ} {e : Event Port} :
    sparesFrames s e = true ↔ SparesFrames s e := by
  rcases e with ⟨c, r⟩
  cases c
  case frameRevokeAll h =>
    simp only [sparesFrames, SparesFrames, List.all_eq_true, decide_eq_true_eq]
    constructor
    · intro hspares raw raw' ptr hraw hheld
      exact hspares (raw', ptr) hheld.mem_announced hheld raw hraw
    · intro hspares x _ hheld raw hraw
      exact hspares raw x.1 x.2 hraw hheld
  case announceFrame h size =>
    rcases r with e | slot
    · exact iff_of_true rfl trivial
    · simp only [sparesFrames, SparesFrames, List.all_eq_true, decide_eq_true_eq]
      constructor
      · intro hspares box raw hbox hheld
        exact hspares (raw, box.addr) hheld.mem_announced hheld box hbox rfl
      · intro hspares x _ hheld box hbox haddr
        rw [← haddr] at hheld
        exact hspares box x.1 hbox hheld
  all_goals exact iff_of_true rfl trivial

instance (s : LoggedState τ) (e : Event Port) : Decidable (SparesFrames s e) :=
  decidable_of_iff _ sparesFrames_iff

/-- The invariant the run lemma carries. -/
def FramesInv (s : LoggedState τ) : Prop := FramesOk s.1 ∧ FramesLive s

theorem FramesLive.of_frames_eq {s s' : LoggedState τ} (h : FramesLive s)
    (hframes : s'.1.frames = s.1.frames) {evs : List (Event VmbC)} (hlog : s'.2.2 = s.2.2 ++ evs)
    (hevs : ∀ e ∈ evs, ∀ raw ptr, takes raw ptr e = false) : FramesLive s' := by
  intro raw ptr hheld
  rw [hlog] at hheld
  rw [hframes]
  exact h raw ptr (hheld.of_append fun e he => hevs e he raw ptr)

/-- An accepted announcement takes its slot from whatever frame had it. -/
theorem framesLive_announced_iff {s : FfiState} {t t' : τ} {l : List (Event VmbC)} {size : UInt32}
    {raw : VmbHandle} (hok : FramesOk s) (hlive : FramesLive (s, t, l)) :
    FramesLive (({ s with
        heap := announcedHeap s size
        counter := s.counter + 1
        frames := s.frames.insert ⟨s.currentId⟩ (announcedBox s size) }, t',
      l ++ [vmbEvent (.vmbFrameAnnounce raw (announcedBox s size).addr) 0]) : LoggedState τ) ↔
      ∀ box raw', s.frames.lookup ⟨s.currentId⟩ = some box → ¬ Holds l raw' box.addr := by
  have hsince : ∀ raw' ptr, Holds (l ++ [vmbEvent (.vmbFrameAnnounce raw (announcedBox s size).addr)
      0]) raw' ptr ↔ (raw = raw' ∧ (announcedBox s size).addr = ptr) ∨ Holds l raw' ptr := by
    intro raw' ptr
    simp [Holds, takes, releases, vmbEvent]
  constructor
  · intro hlive' box raw' hb hheld
    obtain ⟨slot, box', hb', haddr⟩ := hlive' raw' box.addr ((hsince raw' _).mpr (Or.inr hheld))
    rcases lookup_insert_eq_some.mp hb' with ⟨-, rfl⟩ | ⟨hne, hb'⟩
    · -- The address is new, so it is not the one of `box`.
      have hlt := hok.lt_announcedBox size hb
      omega
    · exact hne (hok.injective _ _ _ _ hb' hb haddr)
  · intro hspares raw' ptr hheld
    rcases (hsince raw' ptr).mp hheld with ⟨-, rfl⟩ | hheld
    · exact ⟨⟨s.currentId⟩, announcedBox s size, Finmap.lookup_insert _, rfl⟩
    · obtain ⟨slot, box, hb, rfl⟩ := hlive raw' ptr hheld
      have hne : slot ≠ ⟨s.currentId⟩ := by
        rintro rfl
        exact hspares box raw' hb hheld
      exact ⟨slot, box, (Finmap.lookup_insert_of_ne _ hne).trans hb, rfl⟩

/-- A revocation clears the table, so the SDK must not hold a frame of another camera. -/
theorem framesLive_revoked_iff {s : FfiState} {t' : τ} {l : List (Event VmbC)} {raw : VmbHandle} :
    FramesLive (({ s with frames := ∅ }, t', l ++ [vmbEvent (.vmbFrameRevokeAll raw) 0]) :
      LoggedState τ) ↔ ∀ raw' ptr, Holds l raw' ptr → raw' = raw := by
  have hsince : ∀ raw' ptr, Holds (l ++ [vmbEvent (.vmbFrameRevokeAll raw) 0]) raw' ptr ↔
      Holds l raw' ptr ∧ raw ≠ raw' := by
    intro raw' ptr
    simp [Holds, takes, releases, vmbEvent]
  constructor
  · intro hlive' raw' ptr hheld
    by_contra hne
    obtain ⟨slot, box, hb, -⟩ := hlive' raw' ptr ((hsince raw' ptr).mpr ⟨hheld, Ne.symm hne⟩)
    simp at hb
  · intro hspares raw' ptr hheld
    obtain ⟨hheld, hne⟩ := (hsince raw' ptr).mp hheld
    exact absurd (hspares raw' ptr hheld).symm hne

/-- Queueing a frame leaves its context where it is. -/
theorem FramesLive.queued {s : FfiState} {t t' : τ} {l : List (Event VmbC)} {slot : FrameSlotId}
    {box : Box TrampolineContext} (hlive : FramesLive (s, t, l))
    (hslot : s.frames.lookup slot = some box) (f : FrameCallback) (raw : VmbHandle) (rc : Int32) :
    FramesLive (({ s with frames := s.frames.insert slot (queuedBox box f) }, t',
      l ++ [vmbEvent (.vmbCaptureFrameQueue raw box.addr .frameCallbackTrampoline) rc]) :
        LoggedState τ) := by
  intro raw' ptr hheld
  obtain ⟨slot', box', hb', rfl⟩ := hlive raw' ptr (hheld.of_append (by simp [takes]))
  rcases eq_or_ne slot' slot with rfl | hne
  · obtain rfl : box = box' := Option.some.inj (hslot.symm.trans hb')
    exact ⟨slot', queuedBox box f, Finmap.lookup_insert _, rfl⟩
  · exact ⟨slot', box', (Finmap.lookup_insert_of_ne _ hne).trans hb', rfl⟩

/-- **One port call keeps every held pointer alive exactly when it spares the frames.** -/
theorem framesInv_step (api : VmbApi τ) (hteardown : TeardownSucceeds api) (s : LoggedState τ)
    (c : PortCall) (hs : FramesInv s) :
    FramesInv (vmbFfiRuntime api.logged s c).2 ↔
      SparesFrames s ⟨c, (vmbFfiRuntime api.logged s c).1⟩ := by
  obtain ⟨hok, hlive⟩ := hs
  obtain ⟨evs, hstep, hlog, hans⟩ := vmbFfiRuntime_step api s.1 s.2.1 s.2.2 c
  have hok' := hstep.framesOk hok
  rw [FramesInv, and_iff_right hok']
  generalize vmbFfiRuntime api.logged s c = out at hstep hlog hok' ⊢
  obtain ⟨r, s', t', l'⟩ := out
  obtain ⟨s, t, l⟩ := s
  simp only at hstep hlog hok hok' hlive ⊢
  subst hlog
  cases hstep with
  | announced h size raw hraw => exact framesLive_announced_iff hok hlive
  | revoked h raw rc hraw =>
      -- the SDK does revoke, so it gives up the frames of this camera
      obtain rfl : rc = 0 := by
        obtain ⟨t', ht'⟩ := hans _ (List.mem_singleton_self _)
        exact ht'.trans (hteardown t' raw).1
      refine framesLive_revoked_iff.trans ⟨fun hspares raw₁ raw' ptr hraw₁ hheld => ?_,
        fun hspares raw' ptr hheld => hspares raw raw' ptr hraw hheld⟩
      obtain rfl : raw = raw₁ := Option.some.inj (hraw.symm.trans hraw₁)
      exact hspares raw' ptr hheld
  | queued h slot cb raw f box rc hraw hcb hslot =>
      exact iff_of_true (hlive.queued hslot f raw rc) trivial
  | announceFailed h size raw rc hraw hrc =>
      exact iff_of_true (hlive.of_frames_eq rfl rfl (by simp [takes, hrc])) trivial
  | quiet c evs r hr hevs =>
      refine iff_of_true (hlive.of_frames_eq rfl rfl fun e he raw ptr =>
        takes_eq_false_of_quiet (hevs e he) raw ptr) ?_
      cases c <;> trivial
  | lifecycle c evs r b hc hevs =>
      refine iff_of_true (hlive.of_frames_eq rfl rfl fun e he raw ptr =>
        takes_eq_false_of_quiet (hevs e he) raw ptr) ?_
      rcases hc with rfl | rfl <;> trivial
  | refused c r hc hr =>
      rw [List.append_nil]
      refine iff_of_true hlive ?_
      cases c with
      | frameRevokeAll h =>
          -- A revocation on an unknown handle frees nothing, so there is no camera to compare with.
          intro raw raw' ptr hraw
          exact absurd (hraw.symm.trans hc) (Option.some_ne_none raw)
      | announceFrame h size =>
          obtain ⟨context, rfl⟩ := hr
          trivial
      | _ => trivial
  | _ => exact iff_of_true (hlive.of_frames_eq rfl rfl (by simp [takes])) trivial

/-! ## Runs -/

theorem framesOk_new : FramesOk .new := ⟨by simp [FfiState.new], by simp [FfiState.new]⟩

theorem framesLive_fresh (t : τ) : FramesLive (fresh t) := by
  intro raw ptr hheld
  simp [fresh, Holds] at hheld

/-- **Frame-pointer liveness.** In a sequential run every frame pointer the SDK holds belongs to a
live context at all times exactly when every port call of the run spares the frames of the other
cameras. -/
theorem always_framesLive_iff (api : VmbApi τ) (hteardown : TeardownSucceeds api) (t : τ)
    (ops : List Op) :
    (runOps ops .empty).Always (vmbFfiRuntime api.logged) FramesLive (fresh t) ↔
      ∀ x ∈ (runOps ops .empty).history (vmbFfiRuntime api.logged) (fresh t),
        SparesFrames x.1 x.2 := by
  have hok : (runOps ops .empty).Always (vmbFfiRuntime api.logged) (fun s => FramesOk s.1)
      (fresh t) := by
    refine Prog.always_of_step _ _ (fun s c hs => ?_) _ _ framesOk_new
    obtain ⟨evs, hstep, -⟩ := vmbFfiRuntime_step api s.1 s.2.1 s.2.2 c
    exact hstep.framesOk hs
  rw [← Prog.always_iff _ FramesInv SparesFrames (framesInv_step api hteardown) _ _
    ⟨framesOk_new, framesLive_fresh t⟩]
  exact (and_iff_right hok).symm.trans (Prog.always_and _ _ _ _ _).symm

theorem mockApi_teardownSucceeds : TeardownSucceeds mockApi := fun _ _ => ⟨rfl, rfl⟩

/-- One of two cameras captures and stops, and then the other one does. -/
def stopBeforeCapture : List Op :=
  [⟨0, none, .openCamera "cam-a"⟩, ⟨1, none, .openCamera "cam-b"⟩, ⟨0, none, .startCapture 2 ⟨1⟩⟩,
    ⟨0, none, .stopCapture⟩, ⟨1, none, .startCapture 1 ⟨2⟩⟩, ⟨1, none, .stopCapture⟩]

theorem always_framesLive_iff_stopBeforeCapture :
    (runOps stopBeforeCapture .empty).Always (vmbFfiRuntime mockApi.logged) FramesLive (fresh 1) :=
  (always_framesLive_iff mockApi mockApi_teardownSucceeds 1 stopBeforeCapture).mpr (by decide +kernel)

/-- Two cameras capture with one buffer each, and the first one stops. -/
def stopBesideCapture : List Op :=
  [⟨0, none, .openCamera "cam-a"⟩, ⟨1, none, .openCamera "cam-b"⟩, ⟨0, none, .startCapture 1 ⟨1⟩⟩,
    ⟨1, none, .startCapture 1 ⟨2⟩⟩, ⟨0, none, .stopCapture⟩]

/-- Stopping the first camera frees the context of the second one's frame under the SDK. -/
theorem not_always_framesLive_stopBesideCapture :
    TeardownSucceeds mockApi ∧
      ¬ (runOps stopBesideCapture .empty).Always (vmbFfiRuntime mockApi.logged) FramesLive
        (fresh 1) := by
  refine ⟨mockApi_teardownSucceeds, fun h => ?_⟩
  have hheld : Holds ((runOps stopBesideCapture .empty).run (vmbFfiRuntime mockApi.logged)
      (fresh 1)).2.2.2 2 2050 := by decide +kernel
  obtain ⟨slot, box, hb, -⟩ := h.2 2 2050 hheld
  have hempty : ((runOps stopBesideCapture .empty).run (vmbFfiRuntime mockApi.logged)
      (fresh 1)).2.1.frames = ∅ := rfl
  rw [hempty] at hb
  simp at hb

end Vmb.Ffi

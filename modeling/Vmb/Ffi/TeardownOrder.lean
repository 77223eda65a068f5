/-
# Vmb.Ffi.TeardownOrder -- teardown calls in any order

The best-effort teardown calls "must tolerate being invoked in an out-of-order state", so after all
of them the tables should not depend on the order they came in. What such a call does to the adapter
does not depend on the SDK (`FfiState.teardown`), and nearly all of them look only at the table they
clear. The exception is `frame_revoke_all`, which wants its camera to be open and then clears the
frames: after `close_camera` it leaves every context behind (`tearsDown_iff`).
-/
import Vmb.Ffi.FailedCalls

namespace Vmb.Ffi

open Vmb.Lib Vmb.Core Vmb.Sdk

/-! ## Teardown calls -/

/-- The best-effort teardown calls of a camera, a frame callback, a registration and a discovery
callback. -/
def teardownCalls (h : CameraHandle) (cb : FrameCallbackId) (r : DiscoveryRegistrationHandle)
    (d : DiscoveryCallbackId) : List PortCall :=
  [.captureEnd h, .captureQueueFlush h, .frameRevokeAll h, .closeCamera h,
    .uninstallFrameCallback cb, .unregisterDiscovery r, .uninstallDiscoveryCallback d]

/-- The heap after the context of a registration has been reclaimed. -/
def Heap.without (heap : Heap) : Option DiscoveryRegState → Heap
  | none => heap
  | some reg => { heap with
      contexts := heap.contexts.erase reg.ctxPtr
      reclaimed := heap.reclaimed ++ [reg.ctxPtr] }

attribute [ext] FfiState

namespace FfiState

/-- What a teardown call does to the adapter, whatever the SDK returns. -/
def teardown (s : FfiState) : PortCall → FfiState
  | .frameRevokeAll h => { s with frames := if h ∈ s.cameras then ∅ else s.frames }
  | .closeCamera h => { s with cameras := s.cameras.erase h }
  | .uninstallFrameCallback cb => { s with frameCallbacks := s.frameCallbacks.erase cb }
  | .unregisterDiscovery r =>
    { s with
      discoveryRegs := s.discoveryRegs.erase r
      heap := s.heap.without (s.discoveryRegs.lookup r) }
  | .uninstallDiscoveryCallback d => { s with discoveryCallbacks := s.discoveryCallbacks.erase d }
  | _ => s

/-- Nothing is left of the camera, its frames, the callbacks and the registration. -/
def tornDown (s : FfiState) (h : CameraHandle) (cb : FrameCallbackId)
    (r : DiscoveryRegistrationHandle) (d : DiscoveryCallbackId) : FfiState :=
  { s with
    cameras := s.cameras.erase h
    frames := ∅
    frameCallbacks := s.frameCallbacks.erase cb
    discoveryCallbacks := s.discoveryCallbacks.erase d
    discoveryRegs := s.discoveryRegs.erase r
    heap := s.heap.without (s.discoveryRegs.lookup r) }

end FfiState

/-- The adapter and the SDK after a sequence of port calls. -/
def callAll {τ : Type} (api : VmbApi τ) (x : FfiState × τ) (cs : List PortCall) : FfiState × τ :=
  cs.foldl (fun x c => (vmbFfiRuntime api x c).2) x

/-- The teardown calls, in this order, leave nothing, and more of them change nothing. -/
structure TearsDown {τ : Type} (api : VmbApi τ) (x : FfiState × τ) (h : CameraHandle)
    (cb : FrameCallbackId) (r : DiscoveryRegistrationHandle) (d : DiscoveryCallbackId)
    (cs : List PortCall) : Prop where
  state : (callAll api x cs).1 = x.1.tornDown h cb r d
  again : ∀ more, (∀ c ∈ more, c ∈ teardownCalls h cb r d) →
    (callAll api (callAll api x cs) more).1 = (callAll api x cs).1

/-- The frames are revoked before the camera is closed. -/
def RevokesFirst (h : CameraHandle) (cs : List PortCall) : Prop :=
  ∃ before after, cs = before ++ .frameRevokeAll h :: after ∧ .closeCamera h ∉ before

theorem revokesFirst_cons {h : CameraHandle} {c : PortCall} {cs : List PortCall} :
    RevokesFirst h (c :: cs) ↔
      c = .frameRevokeAll h ∨ c ≠ .closeCamera h ∧ RevokesFirst h cs := by
  constructor
  · rintro ⟨before, after, hcs, hopen⟩
    rcases List.cons_eq_append_iff.mp hcs with ⟨rfl, hcs⟩ | ⟨before', rfl, rfl⟩
    · cases hcs
      exact Or.inl rfl
    · rw [List.mem_cons, not_or] at hopen
      exact Or.inr ⟨Ne.symm hopen.1, before', after, rfl, hopen.2⟩
  · rintro (rfl | ⟨hne, before, after, rfl, hopen⟩)
    · exact ⟨[], cs, rfl, List.not_mem_nil⟩
    · refine ⟨c :: before, after, rfl, fun hmem => ?_⟩
      rcases List.mem_cons.mp hmem with heq | hmem
      · exact hne heq.symm
      · exact hopen hmem

/-! ## One call -/

variable {h : CameraHandle} {cb : FrameCallbackId} {r : DiscoveryRegistrationHandle}
  {d : DiscoveryCallbackId} {s : FfiState} {c : PortCall} {cs : List PortCall}

theorem erase_erase_self {K V : Type} [DecidableEq K] (t : Finmap fun _ : K => V) (k : K) :
    (t.erase k).erase k = t.erase k := erase_of_lookup_none (Finmap.lookup_erase k t)

/-- **The SDK has no say in what a teardown call leaves.** -/
theorem vmbFfiRuntime_teardown {τ : Type} (api : VmbApi τ) (x : FfiState × τ)
    (hc : c ∈ teardownCalls h cb r d) : (vmbFfiRuntime api x c).2.1 = x.1.teardown c := by
  simp only [teardownCalls, List.mem_cons, List.not_mem_nil, or_false] at hc
  rcases hc with rfl | rfl | rfl | rfl | rfl | rfl | rfl
  · show ((x.1.captureEnd h).run api x.2).1.2 = x.1
    unfold FfiState.captureEnd FfiState.resolveCamera
    rcases x.1.cameras.lookup h with - | raw <;> rfl
  · show ((x.1.captureQueueFlush h).run api x.2).1.2 = x.1
    unfold FfiState.captureQueueFlush FfiState.resolveCamera
    rcases x.1.cameras.lookup h with - | raw <;> rfl
  · show ((x.1.frameRevokeAll h).run api x.2).1.2 =
      { x.1 with frames := if h ∈ x.1.cameras then ∅ else x.1.frames }
    unfold FfiState.frameRevokeAll FfiState.resolveCamera
    rcases hraw : x.1.cameras.lookup h with - | raw
    · rw [if_neg (Finmap.lookup_eq_none.mp hraw)]
      rfl
    · rw [if_pos (Finmap.mem_of_lookup_eq_some hraw)]
      rfl
  · show ((x.1.closeCamera h).run api x.2).1.2 = { x.1 with cameras := x.1.cameras.erase h }
    unfold FfiState.closeCamera
    rcases hraw : x.1.cameras.lookup h with - | raw
    · rw [erase_of_lookup_none hraw]
      rfl
    · rfl
  · rfl
  · show ((x.1.unregisterDiscovery r).run api x.2).1.2 =
      { x.1 with
        discoveryRegs := x.1.discoveryRegs.erase r
        heap := x.1.heap.without (x.1.discoveryRegs.lookup r) }
    unfold FfiState.unregisterDiscovery
    rcases hreg : x.1.discoveryRegs.lookup r with - | reg
    · rw [erase_of_lookup_none hreg]
      rfl
    · rfl
  · rfl

theorem callAll_teardown {τ : Type} (api : VmbApi τ) (x : FfiState × τ)
    (hcs : ∀ c ∈ cs, c ∈ teardownCalls h cb r d) :
    (callAll api x cs).1 = cs.foldl FfiState.teardown x.1 := by
  induction cs generalizing x with
  | nil => rfl
  | cons c cs ih =>
      rw [List.forall_mem_cons] at hcs
      rw [List.foldl_cons, ← vmbFfiRuntime_teardown api x hcs.1]
      exact ih _ hcs.2

/-- A call that has nothing left to tear down changes nothing. -/
theorem FfiState.teardown_eq_self (hc : c ∈ teardownCalls h cb r d)
    (hcamera : s.cameras.lookup h = none) (hcb : s.frameCallbacks.lookup cb = none)
    (hr : s.discoveryRegs.lookup r = none) (hd : s.discoveryCallbacks.lookup d = none) :
    s.teardown c = s := by
  simp only [teardownCalls, List.mem_cons, List.not_mem_nil, or_false] at hc
  rcases hc with rfl | rfl | rfl | rfl | rfl | rfl | rfl
  · rfl
  · rfl
  · simp only [teardown, if_neg (Finmap.lookup_eq_none.mp hcamera)]
  · simp only [teardown, erase_of_lookup_none hcamera]
  · simp only [teardown, erase_of_lookup_none hcb]
  · simp only [teardown, hr, Heap.without, erase_of_lookup_none hr]
  · simp only [teardown, erase_of_lookup_none hd]

/-! ## All calls -/

/-- A part of the state that one call clears, and that no other call touches. -/
theorem foldl_teardown {β : Type} (field : FfiState → β) (clear : β → β) (call : PortCall)
    (hclear : ∀ b, clear (clear b) = clear b)
    (hfield : ∀ c ∈ teardownCalls h cb r d, ∀ s : FfiState,
      field (s.teardown c) = if c = call then clear (field s) else field s)
    (hcs : ∀ c ∈ cs, c ∈ teardownCalls h cb r d) (hcall : call ∈ cs) (s : FfiState) :
    field (cs.foldl FfiState.teardown s) = clear (field s) := by
  have hfold : ∀ (cs : List PortCall) (s : FfiState), (∀ c ∈ cs, c ∈ teardownCalls h cb r d) →
      field (cs.foldl FfiState.teardown s) =
        if call ∈ cs then clear (field s) else field s := by
    intro cs
    induction cs with
    | nil =>
        intro s _
        rfl
    | cons c cs ih =>
        intro s hcs
        rw [List.forall_mem_cons] at hcs
        rw [List.foldl_cons, ih _ hcs.2, hfield c hcs.1 s]
        by_cases hc : c = call
        · simp [hc, hclear]
        · simp [hc, Ne.symm hc]
  rw [hfold cs s hcs, if_pos hcall]

/-- The frames are cleared by a call that still finds the camera open. -/
theorem foldl_frames (hcs : ∀ c ∈ cs, c ∈ teardownCalls h cb r d) (s : FfiState) :
    (cs.foldl FfiState.teardown s).frames = ∅ ↔
      s.frames = ∅ ∨ h ∈ s.cameras ∧ RevokesFirst h cs := by
  induction cs generalizing s with
  | nil => simp [RevokesFirst]
  | cons c cs ih =>
      rw [List.forall_mem_cons] at hcs
      rw [List.foldl_cons, ih hcs.2, revokesFirst_cons]
      have hc := hcs.1
      simp only [teardownCalls, List.mem_cons, List.not_mem_nil, or_false] at hc
      rcases hc with rfl | rfl | rfl | rfl | rfl | rfl | rfl
      · simp [FfiState.teardown]
      · simp [FfiState.teardown]
      · by_cases hopen : h ∈ s.cameras
        · simp [FfiState.teardown, hopen]
        · simp [FfiState.teardown, hopen]
      · simp [FfiState.teardown]
      · simp [FfiState.teardown]
      · simp [FfiState.teardown]
      · simp [FfiState.teardown]

/-- Every call clears one part of the state, or none: a check call by call. -/
theorem forall_teardownCalls {P : PortCall → Prop} :
    (∀ c ∈ teardownCalls h cb r d, P c) ↔
      P (.captureEnd h) ∧ P (.captureQueueFlush h) ∧ P (.frameRevokeAll h) ∧ P (.closeCamera h) ∧
        P (.uninstallFrameCallback cb) ∧ P (.unregisterDiscovery r) ∧
        P (.uninstallDiscoveryCallback d) := by
  simp [teardownCalls]

/-- **What the teardown calls leave, in any order.** Only the frames can depend on it. -/
theorem foldl_fields (hcs : ∀ c, c ∈ cs ↔ c ∈ teardownCalls h cb r d) (s : FfiState) :
    cs.foldl FfiState.teardown s =
      { s.tornDown h cb r d with frames := (cs.foldl FfiState.teardown s).frames } := by
  have hmem : ∀ c ∈ cs, c ∈ teardownCalls h cb r d := fun c => (hcs c).mp
  have hall : ∀ c ∈ teardownCalls h cb r d, c ∈ cs := fun c => (hcs c).mpr
  obtain ⟨hend, -, -, hclose, hcb, hr, hd⟩ := forall_teardownCalls.mp hall
  -- the table and the heap change together: the context is found through the entry
  have hreg := foldl_teardown (fun s => (s.discoveryRegs, s.heap))
    (fun p => (p.1.erase r, p.2.without (p.1.lookup r))) (.unregisterDiscovery r)
    (fun p => by
      show ((p.1.erase r).erase r, (p.2.without (p.1.lookup r)).without ((p.1.erase r).lookup r)) =
        (p.1.erase r, p.2.without (p.1.lookup r))
      rw [erase_erase_self, Finmap.lookup_erase]
      rfl)
    (forall_teardownCalls.mpr (by simp [FfiState.teardown]))
    hmem hr s
  refine FfiState.ext ?_ ?_ rfl ?_ ?_ ?_ ?_ ?_
  · exact foldl_teardown (·.started) id (.captureEnd h) (fun _ => rfl)
      (forall_teardownCalls.mpr (by simp [FfiState.teardown]))
      hmem hend s
  · exact foldl_teardown (·.cameras) (·.erase h) (.closeCamera h) (fun t => erase_erase_self t h)
      (forall_teardownCalls.mpr (by simp [FfiState.teardown]))
      hmem hclose s
  · exact foldl_teardown (·.frameCallbacks) (·.erase cb) (.uninstallFrameCallback cb)
      (fun t => erase_erase_self t cb)
      (forall_teardownCalls.mpr (by simp [FfiState.teardown]))
      hmem hcb s
  · exact foldl_teardown (·.discoveryCallbacks) (·.erase d) (.uninstallDiscoveryCallback d)
      (fun t => erase_erase_self t d)
      (forall_teardownCalls.mpr (by simp [FfiState.teardown]))
      hmem hd s
  · exact congrArg Prod.fst hreg
  · exact foldl_teardown (·.counter) id (.captureEnd h) (fun _ => rfl)
      (forall_teardownCalls.mpr (by simp [FfiState.teardown]))
      hmem hend s
  · exact congrArg Prod.snd hreg

/-- Once all calls have been made, none of them does anything. -/
theorem foldl_again (hcs : ∀ c, c ∈ cs ↔ c ∈ teardownCalls h cb r d) (s : FfiState)
    {more : List PortCall} (hmore : ∀ c ∈ more, c ∈ teardownCalls h cb r d) :
    more.foldl FfiState.teardown (cs.foldl FfiState.teardown s) =
      cs.foldl FfiState.teardown s := by
  induction more with
  | nil => rfl
  | cons c more ih =>
      rw [List.forall_mem_cons] at hmore
      have hself : (cs.foldl FfiState.teardown s).teardown c = cs.foldl FfiState.teardown s := by
        rw [foldl_fields hcs s]
        exact FfiState.teardown_eq_self hmore.1 (Finmap.lookup_erase _ _)
          (Finmap.lookup_erase _ _) (Finmap.lookup_erase _ _) (Finmap.lookup_erase _ _)
      rw [List.foldl_cons, hself]
      exact ih hmore.2

/-- **Teardown does not depend on its order, except that the frames want their camera.** Over every
SDK and from every state with the camera open, reachable or not. The calls come in any order, and
each of them as often as it likes. -/
theorem tearsDown_iff {τ : Type} (api : VmbApi τ) (x : FfiState × τ) (hopen : h ∈ x.1.cameras)
    (hcs : ∀ c, c ∈ cs ↔ c ∈ teardownCalls h cb r d) :
    TearsDown api x h cb r d cs ↔ x.1.frames = ∅ ∨ RevokesFirst h cs := by
  have hmem : ∀ c ∈ cs, c ∈ teardownCalls h cb r d := fun c => (hcs c).mp
  have hstate := callAll_teardown api x hmem
  have hframes : (callAll api x cs).1.frames = ∅ ↔ x.1.frames = ∅ ∨ RevokesFirst h cs := by
    rw [hstate, foldl_frames hmem, and_iff_right hopen]
  constructor
  · intro hdown
    refine hframes.mp ?_
    rw [hdown.state]
    rfl
  · intro hfirst
    have hempty := hframes.mpr hfirst
    refine ⟨?_, fun more hmore => ?_⟩
    · rw [hstate] at hempty
      rw [hstate, foldl_fields hcs, hempty]
      rfl
    · rw [callAll_teardown api _ hmore, hstate]
      exact foldl_again hcs x.1 hmore

/-- A capture with one buffer, and one registration for discovery events. -/
def captureAndDiscovery : FfiState × Nat :=
  callAll mockApi (oneFrame.state, 2) [.installDiscoveryCallback ⟨8⟩, .registerDiscovery ⟨4⟩]

theorem captureAndDiscovery_reachable : Reachable captureAndDiscovery.1 :=
  .call mockApi _ (.registerDiscovery ⟨4⟩)
    (.call mockApi 2 (.installDiscoveryCallback ⟨8⟩) oneFrame_reachable)

/-- The handle of the camera. -/
def captureHandle : CameraHandle := ⟨⟨1, nonZero_one⟩⟩

theorem captureHandle_open : captureHandle ∈ captureAndDiscovery.1.cameras := by decide +kernel

theorem tearsDown_iff_inOrder :
    TearsDown mockApi captureAndDiscovery captureHandle ⟨2⟩ ⟨5⟩ ⟨4⟩
        (teardownCalls captureHandle ⟨2⟩ ⟨5⟩ ⟨4⟩) ↔
      captureAndDiscovery.1.frames = ∅ ∨
        RevokesFirst captureHandle (teardownCalls captureHandle ⟨2⟩ ⟨5⟩ ⟨4⟩) :=
  tearsDown_iff mockApi captureAndDiscovery captureHandle_open fun _ => Iff.rfl

/-- Closing the camera before its frames are revoked. -/
def closesFirst : List PortCall :=
  [.captureEnd captureHandle, .captureQueueFlush captureHandle, .closeCamera captureHandle,
    .frameRevokeAll captureHandle, .uninstallFrameCallback ⟨2⟩, .unregisterDiscovery ⟨5⟩,
    .uninstallDiscoveryCallback ⟨4⟩]

/-- The context of the frame stays in the table for ever, for no call can revoke it any more. -/
theorem not_tearsDown_closesFirst :
    Reachable captureAndDiscovery.1 ∧ captureHandle ∈ captureAndDiscovery.1.cameras ∧
      closesFirst.Perm (teardownCalls captureHandle ⟨2⟩ ⟨5⟩ ⟨4⟩) ∧
      (callAll mockApi captureAndDiscovery closesFirst).1.frames.lookup ⟨3⟩ = some oneBox ∧
      ¬ TearsDown mockApi captureAndDiscovery captureHandle ⟨2⟩ ⟨5⟩ ⟨4⟩ closesFirst := by
  have hleft : (callAll mockApi captureAndDiscovery closesFirst).1.frames.lookup ⟨3⟩ =
      some oneBox := by decide +kernel
  refine ⟨captureAndDiscovery_reachable, captureHandle_open, by decide +kernel, hleft,
    fun hdown => ?_⟩
  rw [hdown.state] at hleft
  exact absurd hleft (by decide +kernel)

end Vmb.Ffi

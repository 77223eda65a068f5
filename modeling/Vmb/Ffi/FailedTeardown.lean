/-
# Vmb.Ffi.FailedTeardown -- pointers at the SDK when a teardown call fails

The teardown calls of the adapter are best effort: `frame_revoke_all` and `unregister_discovery` free
what they own whatever the SDK returns. If a non-zero code means that the SDK kept its pointers, they
dangle after such a call. `always_pointersSafe` says that nothing else makes one dangle on a single
camera: a frame pointer the SDK may still use refers to a live context unless a `VmbFrameRevokeAll` of the
camera has failed since it was announced, and a user context unless it is the one whose own
`VmbFeatureInvalidationUnregister` has failed.
-/
import Vmb.Ffi.FrameLiveness
import Vmb.Ffi.Handles

namespace Vmb.Ffi

open Vmb.Lib Vmb.Core Vmb.Sdk

/-! ## Discovery contexts at the SDK -/

/-- The SDK accepts `ptr` as the user context of the discovery callback. -/
def registers (ptr : Nat) : Event VmbC → Bool
  | ⟨.vmbFeatureInvalidationRegister _ _ _ ptr', rc⟩ => ptr' = ptr ∧ rc = 0
  | _ => false

/-- The SDK gives up its registration of the discovery callback. -/
def unregisters : Event VmbC → Bool
  | ⟨.vmbFeatureInvalidationUnregister _ _ _, rc⟩ => rc = 0
  | _ => false

/-- After the SDK calls of `log`, the SDK may pass the user context `ptr` to the trampoline. The
adapter always registers the same handle, feature and callback, and these three are all that the
unregister call names. -/
def Registered (log : List (Event VmbC)) (ptr : Nat) : Prop :=
  Since (registers ptr ·) (unregisters ·) log

/-- `VmbFrameRevokeAll` fails and the SDK keeps the frame pointers of the camera. -/
def failsRevoke (raw : VmbHandle) : Event VmbC → Bool
  | ⟨.vmbFrameRevokeAll raw', rc⟩ => raw' = raw ∧ rc ≠ 0
  | _ => false

instance (log : List (Event VmbC)) (ptr : Nat) : Decidable (Registered log ptr) :=
  inferInstanceAs (Decidable (Since _ _ _))

variable {τ : Type}

/-! ## Refused teardown -/

/-- The user context of the registration a call takes out of the table, if the SDK refuses to unregister
it. -/
def refusedBy (api : VmbApi τ) (s : LoggedState τ) : PortCall → Option Nat
  | .unregisterDiscovery r =>
    match s.1.discoveryRegs.lookup r with
    | none => none
    | some reg =>
      let rc : Int32 :=
        (api s.2.1 (.vmbFeatureInvalidationUnregister gVmbHandle reg.feature .discoveryTrampoline)).1
      if rc = 0 then none else some reg.ctxPtr
  | _ => none

/-- The user contexts whose own unregister call is refused in a sequence of port calls. -/
def refused (api : VmbApi τ) : List PortCall → LoggedState τ → List Nat
  | [], _ => []
  | c :: cs, s => (refusedBy api s c).toList ++ refused api cs (vmbFfiRuntime api.logged s c).2

/-! ## Safety -/

/-- Every user context the SDK may still pass has not been freed. -/
def ContextsLive (s : LoggedState τ) : Prop :=
  ∀ ptr, Registered s.2.2 ptr → ptr ∈ s.1.heap.contexts

/-- `FramesLive` and `ContextsLive`, except for the pointers a failed teardown call was about: the frames
of a camera whose revoke has failed, and the user contexts `refused`. -/
structure PointersSafe (refused : List Nat) (s : LoggedState τ) : Prop where
  frames : ∀ raw ptr, Holds s.2.2 raw ptr →
    (∃ slot box, s.1.frames.lookup slot = some box ∧ box.addr = ptr) ∨
      Since (failsRevoke raw ·) (takes raw ptr ·) s.2.2
  contexts : ∀ ptr, Registered s.2.2 ptr → ptr ∈ s.1.heap.contexts ∨ ptr ∈ refused

/-! ## Allocations -/

/-- Every address the adapter has stored or given away was allocated, and every slot id in `frames`
was issued. -/
structure PointersOk (s : LoggedState τ) : Prop where
  frames : FramesOk s.1
  slots : ∀ slot box, s.1.frames.lookup slot = some box → slot.id.toNat < s.1.counter
  contexts : ∀ ptr ∈ s.1.heap.contexts, ptr < s.1.heap.brk
  announced : ∀ e ∈ s.2.2, ∀ raw ptr, takes raw ptr e = true → ptr < s.1.heap.brk
  registered : ∀ e ∈ s.2.2, ∀ ptr, registers ptr e = true → ptr < s.1.heap.brk

theorem registers_eq_false_of_quiet {e : Event VmbC} (h : Quiet e.call) (ptr : Nat) :
    registers ptr e = false := by
  rcases e with ⟨c, r⟩
  cases c <;> first | rfl | exact absurd h id

section Step

variable {s s' : FfiState} {c : PortCall} {evs : List (Event VmbC)} {r : c.Resp}

/-- The SDK accepts a frame in an announcement only, for an open camera and at a new address. -/
theorem Step.of_takes (h : Step s c evs r s') {e : Event VmbC} (he : e ∈ evs) {raw : VmbHandle}
    {ptr : Nat} (ht : takes raw ptr e = true) :
    (∃ h', s.cameras.lookup h' = some raw) ∧
      ∃ size, ptr = (announcedBox s size).addr ∧ s'.heap = announcedHeap s size := by
  cases h with
  | announced h' size raw' hraw =>
      obtain rfl := List.mem_singleton.mp he
      obtain ⟨rfl, rfl, -⟩ : raw' = raw ∧ (announcedBox s size).addr = ptr ∧ _ :=
        of_decide_eq_true ht
      exact ⟨⟨h', hraw⟩, size, rfl, rfl⟩
  | quiet c evs r hr hevs =>
      rw [takes_eq_false_of_quiet (hevs e he)] at ht
      cases ht
  | lifecycle c evs r b hc hevs =>
      rw [takes_eq_false_of_quiet (hevs e he)] at ht
      cases ht
  | announceFailed h size raw' rc hraw hrc =>
      -- The SDK has refused the frame, so it keeps no pointer to the context that is freed.
      rw [List.mem_singleton.mp he] at ht
      simp [takes, hrc] at ht
  | _ =>
      first
        | exact absurd he List.not_mem_nil
        | (rw [List.mem_singleton.mp he] at ht; cases ht)

/-- A frame pointer a step gives away is new. -/
theorem Step.takes_bounds (h : Step s c evs r s') {e : Event VmbC} (he : e ∈ evs) {raw : VmbHandle}
    {ptr : Nat} (ht : takes raw ptr e = true) : s.heap.brk ≤ ptr ∧ ptr < s'.heap.brk := by
  obtain ⟨-, size, rfl, hheap⟩ := h.of_takes he ht
  rw [hheap, announcedHeap_brk, announcedBox_addr]
  omega

/-- A user context a step gives away is new. -/
theorem Step.registers_bounds (h : Step s c evs r s') {e : Event VmbC} (he : e ∈ evs) {ptr : Nat}
    (ht : registers ptr e = true) : s.heap.brk ≤ ptr ∧ ptr < s'.heap.brk := by
  cases h with
  | registered cb f hcb =>
      rw [List.mem_singleton.mp he] at ht
      simp only [registers, decide_eq_true_eq] at ht
      simp [FfiState.intoRaw, FfiState.alloc, ← ht.1]
  | quiet c evs r hr hevs =>
      rw [registers_eq_false_of_quiet (hevs e he)] at ht
      cases ht
  | lifecycle c evs r b hc hevs =>
      rw [registers_eq_false_of_quiet (hevs e he)] at ht
      cases ht
  | registerFailed cb f rc hcb hrc =>
      rw [List.mem_singleton.mp he] at ht
      simp [registers, hrc] at ht
  | _ =>
      first
        | exact absurd he List.not_mem_nil
        | (rw [List.mem_singleton.mp he] at ht; cases ht)

/-- Slot ids in the table are below the counter. -/
theorem Step.slots_lt (h : Step s c evs r s')
    (hs : ∀ slot box, s.frames.lookup slot = some box → slot.id.toNat < s.counter) (slot : FrameSlotId)
    (box : Box TrampolineContext) (hb : s'.frames.lookup slot = some box) :
    slot.id.toNat < s'.counter := by
  have hle := h.counter_le
  cases h with
  | announced h size raw hraw =>
      rcases eq_or_ne slot ⟨s.currentId⟩ with rfl | hne
      · exact Nat.lt_succ_of_le (Nat.mod_le _ _)
      · rw [Finmap.lookup_insert_of_ne _ hne] at hb
        exact Nat.lt_succ_of_lt (hs slot box hb)
  | queued h slot' cb raw f box' rc hraw hcb hslot =>
      rcases eq_or_ne slot slot' with rfl | hne
      · exact hs slot box' hslot
      · rw [Finmap.lookup_insert_of_ne _ hne] at hb
        exact hs slot box hb
  | revoked h raw rc hraw => simp at hb
  | _ => exact Nat.lt_of_lt_of_le (hs slot box hb) hle

/-- Contexts behind raw pointers are allocated. -/
theorem Step.contexts_lt (h : Step s c evs r s') (hs : ∀ ptr ∈ s.heap.contexts, ptr < s.heap.brk)
    (ptr : Nat) (hp : ptr ∈ s'.heap.contexts) : ptr < s'.heap.brk := by
  have hle := h.brk_le
  cases h with
  | registered cb f hcb =>
      simp only [FfiState.intoRaw, FfiState.alloc, Finmap.mem_insert] at hp ⊢
      rcases hp with rfl | hp
      · simp
      · exact Nat.lt_of_lt_of_le (hs ptr hp) (by simp)
  | registerFailed cb f rc hcb hrc =>
      simp only [FfiState.fromRaw, FfiState.intoRaw, FfiState.alloc, Finmap.mem_erase,
        Finmap.mem_insert] at hp ⊢
      exact Nat.lt_of_lt_of_le (hs ptr (hp.2.resolve_left hp.1)) (by simp)
  | unregistered r reg rc hreg =>
      simp only [FfiState.fromRaw, Finmap.mem_erase] at hp
      exact hs ptr hp.2
  | _ => exact Nat.lt_of_lt_of_le (hs ptr hp) hle

end Step

theorem pointersOk_fresh (t : τ) : PointersOk (fresh t) where
  frames := framesOk_new
  slots := by simp [fresh, FfiState.new]
  contexts ptr hp := absurd hp Finmap.notMem_empty
  announced := by simp [fresh]
  registered := by simp [fresh]

theorem pointersOk_step (api : VmbApi τ) (s : LoggedState τ) (c : PortCall) (hs : PointersOk s) :
    PointersOk (vmbFfiRuntime api.logged s c).2 := by
  obtain ⟨evs, hstep, hlog, -⟩ := vmbFfiRuntime_step api s.1 s.2.1 s.2.2 c
  refine ⟨hstep.framesOk hs.frames, hstep.slots_lt hs.slots, hstep.contexts_lt hs.contexts,
    fun e he raw ptr ht => ?_, fun e he ptr ht => ?_⟩
  · rw [hlog, List.mem_append] at he
    rcases he with he | he
    · exact Nat.lt_of_lt_of_le (hs.announced e he raw ptr ht) hstep.brk_le
    · exact (hstep.takes_bounds he ht).2
  · rw [hlog, List.mem_append] at he
    rcases he with he | he
    · exact Nat.lt_of_lt_of_le (hs.registered e he ptr ht) hstep.brk_le
    · exact (hstep.registers_bounds he ht).2

/-! ## One camera -/

/-- Every handle and every frame belongs to the same raw camera. -/
structure OneCamera (raw₀ : VmbHandle) (s : LoggedState τ) : Prop where
  cameras : ∀ h raw, s.1.cameras.lookup h = some raw → raw = raw₀
  frames : ∀ e ∈ s.2.2, ∀ raw ptr, takes raw ptr e = true → raw = raw₀

theorem oneCamera_fresh (raw₀ : VmbHandle) (t : τ) : OneCamera raw₀ (fresh t) where
  cameras := by simp [fresh, FfiState.new]
  frames := by simp [fresh]

/-- A camera in the table was there before, or the SDK has opened it. -/
theorem Step.cameras_cases {s s' : FfiState} {c : PortCall} {evs : List (Event VmbC)} {r : c.Resp}
    (h : Step s c evs r s') {h' : CameraHandle} {raw : VmbHandle}
    (hl : s'.cameras.lookup h' = some raw) :
    s.cameras.lookup h' = some raw ∨ raw ∈ evs.filterMap openedBy := by
  cases h with
  | opened id cId raw' hc hid =>
      rcases lookup_insert_eq_some.mp hl with ⟨-, rfl⟩ | ⟨-, hold⟩
      · exact Or.inr (by simp [openedBy])
      · exact Or.inl hold
  | closed h raw' rc hraw => exact Or.inl (lookup_erase_eq_some.mp hl).2
  | _ => exact Or.inl hl

theorem oneCamera_step (api : VmbApi τ) {raw₀ : VmbHandle} (s : LoggedState τ) (c : PortCall)
    (hone : ∀ raw ∈ (vmbFfiRuntime api.logged s c).2.2.2.filterMap openedBy, raw = raw₀)
    (hs : OneCamera raw₀ s) : OneCamera raw₀ (vmbFfiRuntime api.logged s c).2 := by
  obtain ⟨evs, hstep, hlog, -⟩ := vmbFfiRuntime_step api s.1 s.2.1 s.2.2 c
  refine ⟨fun h raw hl => ?_, fun e he raw ptr ht => ?_⟩
  · rcases hstep.cameras_cases hl with hold | hopened
    · exact hs.cameras h raw hold
    · refine hone raw ?_
      rw [hlog, List.filterMap_append]
      exact List.mem_append_right _ hopened
  · rw [hlog, List.mem_append] at he
    rcases he with he | he
    · exact hs.frames e he raw ptr ht
    · obtain ⟨⟨h, hl⟩, -⟩ := hstep.of_takes he ht
      exact hs.cameras h raw hl

/-! ## The step lemma -/

/-- The counter value of a new identifier, while the counter has not wrapped. -/
theorem currentId_toNat {s : FfiState} (h : s.counter < 2 ^ 64) :
    s.currentId.toNat = s.counter := Nat.mod_eq_of_lt h

/-- The frame pointers of one camera: only a failed revoke leaves one dangling. -/
theorem Step.framesSafe {s s' : FfiState} {c : PortCall} {evs log : List (Event VmbC)} {r : c.Resp}
    (h : Step s c evs r s')
    (hslots : ∀ slot box, s.frames.lookup slot = some box → slot.id.toNat < s.counter)
    (hids : s'.counter ≤ 2 ^ 64) {raw₀ : VmbHandle}
    (hraw : ∀ h raw, s.cameras.lookup h = some raw → raw = raw₀)
    (hlog : ∀ e ∈ log, ∀ raw ptr, takes raw ptr e = true → raw = raw₀)
    (hs : ∀ raw ptr, Holds log raw ptr →
      (∃ slot box, s.frames.lookup slot = some box ∧ box.addr = ptr) ∨
        Since (failsRevoke raw ·) (takes raw ptr ·) log)
    (raw : VmbHandle) (ptr : Nat) (hheld : Holds (log ++ evs) raw ptr) :
    (∃ slot box, s'.frames.lookup slot = some box ∧ box.addr = ptr) ∨
      Since (failsRevoke raw ·) (takes raw ptr ·) (log ++ evs) := by
  -- a step that gives no frame away and keeps the table
  have hkeep : s'.frames = s.frames → (∀ e ∈ evs, takes raw ptr e = false) →
      (∃ slot box, s'.frames.lookup slot = some box ∧ box.addr = ptr) ∨
        Since (failsRevoke raw ·) (takes raw ptr ·) (log ++ evs) := by
    intro hframes hevs
    rw [hframes]
    exact (hs raw ptr (hheld.of_append hevs)).imp_right fun h =>
      h.append fun e he => by simp [hevs e he]
  cases h with
  | announced h size raw' hraw' =>
      by_cases hptr : ptr = (announcedBox s size).addr
      · exact Or.inl ⟨⟨s.currentId⟩, announcedBox s size, by simp, hptr.symm⟩
      · have hevs : ∀ e ∈ [vmbEvent (.vmbFrameAnnounce raw' (announcedBox s size).addr) 0],
            takes raw ptr e = false := by
          simp [takes, Ne.symm hptr]
        refine (hs raw ptr (hheld.of_append hevs)).imp ?_
          fun h => h.append fun e he => by simp [hevs e he]
        rintro ⟨slot, box, hb, haddr⟩
        have hne : slot ≠ ⟨s.currentId⟩ := by
          rintro rfl
          have hlt := hslots _ box hb
          rw [currentId_toNat (Nat.lt_of_succ_le hids)] at hlt
          exact Nat.lt_irrefl _ hlt
        exact ⟨slot, box, by simpa [hne] using hb, haddr⟩
  | revoked h raw' rc hraw' =>
      have hheld' := hheld.of_append (by simp [takes])
      -- the frame belongs to the one camera, so the revoke was about it
      obtain ⟨e, he, ht⟩ := Since.exists_mem hheld'
      obtain rfl : raw = raw' := (hlog e he raw ptr ht).trans (hraw h raw' hraw').symm
      by_cases hrc : rc = 0
      · simp [Holds, takes, releases, hrc] at hheld
      · exact Or.inr (since_append.mpr (Or.inl (by simp [failsRevoke, hrc])))
  | queued h slot cb raw' f box rc hraw' hcb hslot =>
      refine (hs raw ptr (hheld.of_append (by simp [takes]))).imp ?_ fun h => h.append (by simp [takes])
      rintro ⟨slot', box', hb', haddr⟩
      rcases eq_or_ne slot' slot with rfl | hne
      · rw [hslot] at hb'
        cases hb'
        exact ⟨slot', queuedBox box f, by simp, haddr⟩
      · exact ⟨slot', box', by simpa [hne] using hb', haddr⟩
  | announceFailed h size raw' rc hraw' hrc => exact hkeep rfl (by simp [takes, hrc])
  | quiet c evs r hr hevs => exact hkeep rfl fun e he => takes_eq_false_of_quiet (hevs e he) raw ptr
  | lifecycle c evs r b hc hevs =>
      exact hkeep rfl fun e he => takes_eq_false_of_quiet (hevs e he) raw ptr
  | _ => exact hkeep rfl (by simp [takes])

/-- The discovery contexts: only its own failed unregister leaves one dangling. -/
theorem Step.contextsSafe {s s' : FfiState} {c : PortCall} {evs log : List (Event VmbC)}
    {r : c.Resp} (h : Step s c evs r s') (hlt : ∀ ptr ∈ s.heap.contexts, ptr < s.heap.brk)
    {ptr : Nat} (hreg : Registered (log ++ evs) ptr)
    (hs : Registered log ptr → ptr ∈ s.heap.contexts) :
    ptr ∈ s'.heap.contexts ∨ ∃ r reg rc, c = .unregisterDiscovery r ∧
      s.discoveryRegs.lookup r = some reg ∧ reg.ctxPtr = ptr ∧ rc ≠ 0 ∧ evs =
        [vmbEvent (.vmbFeatureInvalidationUnregister gVmbHandle reg.feature .discoveryTrampoline) rc] := by
  -- a step that registers nothing and keeps the contexts
  have hkeep : (∀ e ∈ evs, registers ptr e = false) → ptr ∈ s.heap.contexts := fun hevs =>
    hs (Since.of_append (fun e he => by simp [hevs e he]) hreg)
  cases h with
  -- the new box is out; the others stay
  | registered cb f hcb =>
      left
      by_cases hptr : ptr = s.heap.brk
      · simp [FfiState.intoRaw, FfiState.alloc, hptr]
      · have hold := hkeep (by simp [registers, Ne.symm hptr])
        simp [FfiState.intoRaw, FfiState.alloc, hold]
  | registerFailed cb f rc hcb hrc =>
      left
      have hold := hkeep (by simp [registers, hrc])
      have hne : ptr ≠ s.heap.brk := Nat.ne_of_lt (hlt ptr hold)
      simpa [FfiState.fromRaw, FfiState.intoRaw, FfiState.alloc, hne] using hold
  | unregistered r reg rc hreg' =>
      have hold := hkeep (by simp [registers])
      by_cases hptr : ptr = reg.ctxPtr
      · right
        refine ⟨r, reg, rc, rfl, hreg', hptr.symm, ?_, rfl⟩
        rintro rfl
        -- the SDK would have given the context up
        simp [Registered, registers, unregisters] at hreg
      · left
        exact Finmap.mem_erase.mpr ⟨hptr, hold⟩
  | quiet c evs r hr hevs =>
      exact Or.inl (hkeep fun e he => registers_eq_false_of_quiet (hevs e he) ptr)
  | lifecycle c evs r b hc hevs =>
      exact Or.inl (hkeep fun e he => registers_eq_false_of_quiet (hevs e he) ptr)
  | _ => exact Or.inl (hkeep (by simp [registers]))

/-- The answer of the SDK to an unregister call. -/
theorem unregister_answer (api : VmbApi τ) (s : LoggedState τ) {r : DiscoveryRegistrationHandle}
    {reg : DiscoveryRegState} (hreg : s.1.discoveryRegs.lookup r = some reg) :
    (vmbFfiRuntime api.logged s (.unregisterDiscovery r)).2.2.2 = s.2.2 ++
      [vmbEvent (.vmbFeatureInvalidationUnregister gVmbHandle reg.feature .discoveryTrampoline)
        (api s.2.1 (.vmbFeatureInvalidationUnregister gVmbHandle reg.feature .discoveryTrampoline)).1] := by
  show (((FfiState.dispatch s.1 (.unregisterDiscovery r)).run api.logged s.2).2.2) = _
  simp only [FfiState.dispatch, FfiState.unregisterDiscovery, hreg]
  rfl

theorem pointersSafe_fresh (t : τ) : PointersSafe [] (fresh t) where
  frames raw ptr hheld := by simp [fresh, Holds] at hheld
  contexts ptr hreg := by simp [fresh, Registered] at hreg

theorem pointersSafe_step (api : VmbApi τ) (s : LoggedState τ) (c : PortCall) {raw₀ : VmbHandle}
    {given : List Nat} (hok : PointersOk s) (hone : OneCamera raw₀ s)
    (hids : (vmbFfiRuntime api.logged s c).2.1.counter ≤ 2 ^ 64) (hs : PointersSafe given s) :
    PointersSafe (given ++ (refusedBy api s c).toList) (vmbFfiRuntime api.logged s c).2 := by
  obtain ⟨evs, hstep, hlog, -⟩ := vmbFfiRuntime_step api s.1 s.2.1 s.2.2 c
  refine ⟨?_, fun ptr hreg => ?_⟩
  · rw [hlog]
    exact hstep.framesSafe hok.slots hids hone.cameras hone.frames hs.frames
  · by_cases hgiven : ptr ∈ given
    · exact Or.inr (List.mem_append_left _ hgiven)
    · rw [hlog] at hreg
      have hold : Registered s.2.2 ptr → ptr ∈ s.1.heap.contexts := fun h =>
        (hs.contexts ptr h).resolve_right hgiven
      refine (hstep.contextsSafe hok.contexts hreg hold).imp_right fun hown => ?_
      obtain ⟨r, reg, rc, rfl, hlookup, rfl, hrc, hevs⟩ := hown
      refine List.mem_append_right _ (Option.mem_toList.mpr ?_)
      rw [unregister_answer api s hlookup, hevs] at hlog
      have hanswer := List.append_cancel_left hlog
      simp only [List.cons.injEq, and_true, vmbEvent, Event.mk.injEq, heq_eq_eq, true_and] at hanswer
      simp only [refusedBy, hlookup, hanswer, if_neg hrc]

/-! ## Sequences of port calls -/

/-- The program that makes the given port calls one after the other. -/
def portCalls : List PortCall → PortM Unit
  | [] => pure ()
  | c :: cs => do
    let _ ← port c
    portCalls cs

theorem counter_reflects (api : VmbApi τ) (n : Nat) (s : LoggedState τ) (c : PortCall)
    (h : (vmbFfiRuntime api.logged s c).2.1.counter ≤ n) : s.1.counter ≤ n := by
  obtain ⟨evs, hstep, -⟩ := vmbFfiRuntime_step api s.1 s.2.1 s.2.2 c
  exact Nat.le_trans hstep.counter_le h

/-- What holds of the counter and of the opened cameras at the end held all the time. -/
theorem end_reflects (api : VmbApi τ) (raw₀ : VmbHandle) (s : LoggedState τ) (c : PortCall)
    (h : (vmbFfiRuntime api.logged s c).2.1.counter ≤ 2 ^ 64 ∧
      ∀ raw ∈ (vmbFfiRuntime api.logged s c).2.2.2.filterMap openedBy, raw = raw₀) :
    s.1.counter ≤ 2 ^ 64 ∧ ∀ raw ∈ s.2.2.filterMap openedBy, raw = raw₀ := by
  obtain ⟨evs, -, hlog, -⟩ := vmbFfiRuntime_step api s.1 s.2.1 s.2.2 c
  refine ⟨counter_reflects api _ s c h.1, fun raw hraw => h.2 raw ?_⟩
  rw [hlog, List.filterMap_append]
  exact List.mem_append_left _ hraw

theorem portCalls_pointersSafe (api : VmbApi τ) {raw₀ : VmbHandle} (cs pre : List PortCall)
    (hpre : pre <+: cs) (given : List Nat) (s : LoggedState τ) (hok : PointersOk s)
    (hone : OneCamera raw₀ s) (hs : PointersSafe given s)
    (hend : ((portCalls cs).run (vmbFfiRuntime api.logged) s).2.1.counter ≤ 2 ^ 64 ∧
      ∀ raw ∈ ((portCalls cs).run (vmbFfiRuntime api.logged) s).2.2.2.filterMap openedBy, raw = raw₀) :
    PointersSafe (given ++ refused api pre s) ((portCalls pre).run (vmbFfiRuntime api.logged) s).2 := by
  induction pre generalizing cs given s with
  | nil =>
      rw [refused, List.append_nil]
      exact hs
  | cons c pre ih =>
      obtain ⟨post, rfl⟩ := hpre
      have hend' := Prog.run_reflects _ (fun s : LoggedState τ => s.1.counter ≤ 2 ^ 64 ∧
        ∀ raw ∈ s.2.2.filterMap openedBy, raw = raw₀) (end_reflects api raw₀) (portCalls (pre ++ post))
        _ hend
      rw [refused, ← List.append_assoc]
      exact ih (pre ++ post) (List.prefix_append pre post) _ _ (pointersOk_step api s c hok)
        (oneCamera_step api s c hend'.2 hone) (pointersSafe_step api s c hok hone hend'.1 hs) hend

/-- **Contexts survive everything but their own failed teardown.** For every sequence of port calls on one
camera, in every state, each frame pointer and each discovery context the SDK may still use refers to a
context that has not been freed, unless a `VmbFrameRevokeAll` of its camera has failed since it was
announced, or the `VmbFeatureInvalidationUnregister` of its own registration has failed. -/
theorem always_pointersSafe (api : VmbApi τ) (t : τ) (cs : List PortCall) (raw₀ : VmbHandle)
    (hone : ∀ raw ∈ ((portCalls cs).run (vmbFfiRuntime api.logged) (fresh t)).2.2.2.filterMap openedBy,
      raw = raw₀)
    (hids : ((portCalls cs).run (vmbFfiRuntime api.logged) (fresh t)).2.1.counter ≤ 2 ^ 64) :
    ∀ pre, pre <+: cs → PointersSafe (refused api pre (fresh t))
      ((portCalls pre).run (vmbFfiRuntime api.logged) (fresh t)).2 := fun pre hpre =>
  portCalls_pointersSafe api cs pre hpre [] (fresh t) (pointersOk_fresh t) (oneCamera_fresh raw₀ t)
    (pointersSafe_fresh t) ⟨hids, hone⟩

/-! ## A failed teardown -/

/-- An SDK that refuses to revoke and to unregister, and otherwise succeeds. -/
def keepingApi : VmbApi Nat := fun n c =>
  match c with
  | .vmbFrameRevokeAll _ => ((-1 : Int32), n)
  | .vmbFeatureInvalidationUnregister _ _ _ => ((-1 : Int32), n)
  | c => mockApi n c

/-- One camera announces a frame and revokes it; one callback is registered and unregistered. -/
def refusedTeardown : List PortCall :=
  [.openCamera "cam-a", .announceFrame ⟨1, nonZero_one⟩ 16, .frameRevokeAll ⟨1, nonZero_one⟩,
    .installDiscoveryCallback ⟨7⟩, .registerDiscovery ⟨3⟩, .unregisterDiscovery ⟨4⟩]

theorem always_pointersSafe_refusedTeardown :
    refused keepingApi refusedTeardown (fresh 1) = [18] ∧ ∀ pre, pre <+: refusedTeardown →
      PointersSafe (refused keepingApi pre (fresh 1))
        ((portCalls pre).run (vmbFfiRuntime keepingApi.logged) (fresh 1)).2 :=
  ⟨by decide +kernel, always_pointersSafe keepingApi 1 refusedTeardown 1 (by decide +kernel)
    (by decide +kernel)⟩

/-- The SDK still has the frame pointer and the user context, and the adapter has freed both. -/
theorem not_always_live_refusedTeardown :
    ¬ (portCalls refusedTeardown).Always (vmbFfiRuntime keepingApi.logged) FramesLive (fresh 1) ∧
      ¬ (portCalls refusedTeardown).Always (vmbFfiRuntime keepingApi.logged) ContextsLive
        (fresh 1) := by
  refine ⟨fun h => ?_, fun h => ?_⟩
  · have hheld : Holds ((portCalls refusedTeardown).run (vmbFfiRuntime keepingApi.logged)
        (fresh 1)).2.2.2 1 17 := by decide +kernel
    obtain ⟨slot, box, hb, -⟩ := h.2 1 17 hheld
    have hempty : ((portCalls refusedTeardown).run (vmbFfiRuntime keepingApi.logged)
        (fresh 1)).2.1.frames = ∅ := rfl
    rw [hempty] at hb
    simp at hb
  · have hreg : Registered ((portCalls refusedTeardown).run (vmbFfiRuntime keepingApi.logged)
        (fresh 1)).2.2.2 18 := by decide +kernel
    have hfreed : 18 ∉ ((portCalls refusedTeardown).run (vmbFfiRuntime keepingApi.logged)
        (fresh 1)).2.1.heap.contexts := by decide +kernel
    exact hfreed (h.2 18 hreg)

end Vmb.Ffi

/-
# Vmb.Ffi.Resources -- no leak and no double release in the adapter

Between two operations of a client program the tables of the adapter are those of the live objects,
every raw camera handle that was opened is either live or closed once, and every context given to the
SDK as a raw box is either that of a live registration or reclaimed once (`resources_balanced`), for
every choice of SDK return codes.

Two things are outside: a `start_capture` that panics, because its slot vector cannot be allocated, abandons
its callback, and after `2^64` identifiers the counter repeats itself.
-/
import Vmb.Core.Alive
import Vmb.Ffi.FailedTeardown
import Vmb.Ffi.Tables

namespace Vmb.Ffi

open Vmb.Lib Vmb.Core Vmb.Sdk

/-! ## Raw camera handles -/

/-- `VmbCameraOpen` succeeds with the raw handle. -/
def opensAs (raw : VmbHandle) : Event VmbC → Bool
  | ⟨.vmbCameraOpen _ _, a⟩ => a.1 = 0 ∧ a.2 = raw
  | _ => false

/-- `VmbCameraClose` is called for the raw handle. -/
def closes (raw : VmbHandle) : Event VmbC → Bool
  | ⟨.vmbCameraClose raw', _⟩ => raw' = raw
  | _ => false

/-- The number of open cameras with the raw handle. -/
def FfiState.openedAs (s : FfiState) (raw : VmbHandle) : Nat :=
  s.cameras.entries.countP fun e => e.2 = raw

/-- A raw handle is closed once for every time it was opened and is not open any more. -/
def CamerasBalanced (s : FfiState) (log : List (Event VmbC)) : Prop :=
  ∀ raw, log.countP (opensAs raw) = log.countP (closes raw) + s.openedAs raw

theorem countP_entries_insert {K V : Type} [DecidableEq K] {m : Finmap fun _ : K => V} {k : K} {v : V}
    (hk : k ∉ m) (p : V → Prop) [DecidablePred p] :
    (m.insert k v).entries.countP (fun e => p e.2) =
      m.entries.countP (fun e => p e.2) + if p v then 1 else 0 := by
  rw [Finmap.entries_insert_of_notMem hk, Multiset.countP_cons]

theorem countP_entries_erase {K V : Type} [DecidableEq K] {m : Finmap fun _ : K => V} {k : K} {v : V}
    (hk : m.lookup k = some v) (p : V → Prop) [DecidablePred p] :
    m.entries.countP (fun e => p e.2) =
      (m.erase k).entries.countP (fun e => p e.2) + if p v then 1 else 0 := by
  have hm : m = (m.erase k).insert k v := by
    refine Finmap.ext_lookup fun k' => ?_
    by_cases hk' : k' = k
    · rw [hk', Finmap.lookup_insert, hk]
    · rw [Finmap.lookup_insert_of_ne _ hk', Finmap.lookup_erase_ne hk']
  conv_lhs => rw [hm]
  exact countP_entries_insert Finmap.notMem_erase_self p

section Quiet

variable {e : Event VmbC} (h : Quiet e.call) (raw : VmbHandle)

include h

theorem opensAs_eq_false_of_quiet : opensAs raw e = false := by
  rcases e with ⟨c, r⟩
  cases c <;> first | rfl | exact absurd h id

theorem closes_eq_false_of_quiet : closes raw e = false := by
  rcases e with ⟨c, r⟩
  cases c <;> first | rfl | exact absurd h id

end Quiet

variable {s s' : FfiState} {c : PortCall} {evs log : List (Event VmbC)} {r : c.Resp}

theorem CamerasBalanced.append_neutral (hs : CamerasBalanced s log) (hcameras : s'.cameras = s.cameras)
    (hopens : ∀ raw, ∀ e ∈ evs, opensAs raw e = false)
    (hcloses : ∀ raw, ∀ e ∈ evs, closes raw e = false) : CamerasBalanced s' (log ++ evs) := by
  intro raw
  have ho : evs.countP (opensAs raw) = 0 :=
    List.countP_eq_zero.mpr fun e he => by simp [hopens raw e he]
  have hc : evs.countP (closes raw) = 0 :=
    List.countP_eq_zero.mpr fun e he => by simp [hcloses raw e he]
  rw [List.countP_append, List.countP_append, ho, hc, FfiState.openedAs, hcameras]
  exact hs raw

/-- A call keeps the balance, while the counter has not wrapped. -/
theorem Step.camerasBalanced (h : Step s c evs r s') (hs : CamerasBalanced s log)
    (hfresh : ∀ h : CameraHandle, h.asU64 = s.currentId → s.counter < 2 ^ 64 → h ∉ s.cameras)
    (hpos : 0 < s.counter) (hids : s'.counter ≤ 2 ^ 64) : CamerasBalanced s' (log ++ evs) := by
  cases h with
  | opened id cId raw hc hid =>
      intro raw'
      have hnew : (⟨s.currentId, hid⟩ : CameraHandle) ∉ s.cameras := hfresh _ rfl hids
      have hcount := countP_entries_insert hnew (v := raw) (fun raw => raw = raw')
      have hbal := hs raw'
      unfold FfiState.openedAs at hbal ⊢
      rw [List.countP_append, List.countP_append, List.countP_singleton, List.countP_singleton, hbal]
      by_cases hraw : raw = raw' <;> simp [opensAs, closes, hraw] at hcount ⊢ <;> omega
  | openPanicked id cId raw m hc hid =>
      have hzero := congrArg UInt64.toNat hid
      rw [currentId_toNat hids] at hzero
      exact absurd hzero (Nat.pos_iff_ne_zero.mp hpos)
  | closed h raw rc hraw =>
      intro raw'
      have hcount := countP_entries_erase hraw (fun raw => raw = raw')
      have hbal := hs raw'
      unfold FfiState.openedAs at hbal ⊢
      rw [List.countP_append, List.countP_append, List.countP_singleton, List.countP_singleton, hbal]
      by_cases hraw' : raw = raw' <;> simp [opensAs, closes, hraw'] at hcount ⊢ <;> omega
  | openFailed id cId rc raw hc hrc =>
      exact hs.append_neutral rfl (by simp [opensAs, hrc]) (by simp [closes])
  | quiet c evs r hr hevs =>
      exact hs.append_neutral rfl (fun raw e he => opensAs_eq_false_of_quiet (hevs e he) raw)
        fun raw e he => closes_eq_false_of_quiet (hevs e he) raw
  | lifecycle c evs r b hc hevs =>
      exact hs.append_neutral rfl (fun raw e he => opensAs_eq_false_of_quiet (hevs e he) raw)
        fun raw e he => closes_eq_false_of_quiet (hevs e he) raw
  | _ => exact hs.append_neutral rfl (by simp [opensAs]) (by simp [closes])

/-! ## Raw boxes -/

/-- The box was given away for a registration that is in the table. -/
def FfiState.BoxInUse (s : FfiState) (ptr : Nat) : Prop :=
  ∃ r reg, s.discoveryRegs.lookup r = some reg ∧ reg.ctxPtr = ptr

/-- A registration under a new handle changes the use of its own box only. -/
theorem FfiState.boxInUse_insert {r : DiscoveryRegistrationHandle} {reg : DiscoveryRegState}
    (hregs : s'.discoveryRegs = s.discoveryRegs.insert r reg)
    (hr : s.discoveryRegs.lookup r = none) {ptr : Nat} (hne : reg.ctxPtr ≠ ptr) :
    s'.BoxInUse ptr ↔ s.BoxInUse ptr := by
  refine exists_congr fun r' => exists_congr fun reg' => and_congr_left fun hptr => ?_
  rw [hregs, lookup_insert_eq_some]
  constructor
  · rintro (⟨-, rfl⟩ | ⟨-, hr'⟩)
    · exact absurd hptr hne
    · exact hr'
  · intro hr'
    refine Or.inr ⟨?_, hr'⟩
    rintro rfl
    rw [hr] at hr'
    cases hr'

/-- So does dropping one. -/
theorem FfiState.boxInUse_erase {r : DiscoveryRegistrationHandle} {reg : DiscoveryRegState}
    (hregs : s'.discoveryRegs = s.discoveryRegs.erase r)
    (hr : s.discoveryRegs.lookup r = some reg) {ptr : Nat} (hne : reg.ctxPtr ≠ ptr) :
    s'.BoxInUse ptr ↔ s.BoxInUse ptr := by
  refine exists_congr fun r' => exists_congr fun reg' => and_congr_left fun hptr => ?_
  rw [hregs, lookup_erase_eq_some, and_iff_right_of_imp]
  rintro hr' rfl
  rw [hr, Option.some.injEq] at hr'
  exact hne (hr' ▸ hptr)

/-- The boxes given away with `Box::into_raw`: those of the registrations are out, and all others
have been reclaimed once. -/
structure Boxes (s : FfiState) : Prop where
  lt_brk : ∀ ptr ∈ s.heap.given, ptr < s.heap.brk
  given : ∀ r reg, s.discoveryRegs.lookup r = some reg → reg.ctxPtr ∈ s.heap.given
  injective : ∀ r r' reg reg', s.discoveryRegs.lookup r = some reg →
    s.discoveryRegs.lookup r' = some reg' → reg.ctxPtr = reg'.ctxPtr → r = r'
  reclaimed : ∀ ptr ∈ s.heap.given, ReturnedOnce (s.BoxInUse ptr) (s.heap.reclaimed.count ptr)
  only : ∀ ptr ∈ s.heap.reclaimed, ptr ∈ s.heap.given

theorem boxes_new : Boxes .new where
  lt_brk ptr hp := absurd hp List.not_mem_nil
  given r reg hr := by simp [FfiState.new] at hr
  injective r r' reg reg' hr := by simp [FfiState.new] at hr
  reclaimed ptr hp := absurd hp List.not_mem_nil
  only ptr hp := absurd hp List.not_mem_nil

namespace Boxes

/-- Neither the registrations nor the boxes change. -/
theorem keep (hs : Boxes s) (hregs : s'.discoveryRegs = s.discoveryRegs)
    (hgiven : s'.heap.given = s.heap.given) (hreclaimed : s'.heap.reclaimed = s.heap.reclaimed)
    (hbrk : s.heap.brk ≤ s'.heap.brk) : Boxes s' where
  lt_brk ptr hp := Nat.lt_of_lt_of_le (hs.lt_brk ptr (hgiven ▸ hp)) hbrk
  given r reg hr := by
    rw [hregs] at hr
    rw [hgiven]
    exact hs.given r reg hr
  injective := by
    rw [hregs]
    exact hs.injective
  reclaimed ptr hp := by
    rw [hgiven] at hp
    rw [FfiState.BoxInUse, hregs, hreclaimed]
    exact hs.reclaimed ptr hp
  only := by
    rw [hgiven, hreclaimed]
    exact hs.only

/-- The next address is new. -/
theorem brk_notMem (hs : Boxes s) : s.heap.brk ∉ s.heap.given ∧ s.heap.brk ∉ s.heap.reclaimed := by
  have hnot : s.heap.brk ∉ s.heap.given := fun h => Nat.lt_irrefl _ (hs.lt_brk _ h)
  exact ⟨hnot, fun h => hnot (hs.only _ h)⟩

theorem lt_brk_intoRaw (hs : Boxes s) (f : DiscoveryCallback) :
    ∀ ptr ∈ (s.intoRaw ⟨f⟩).2.heap.given, ptr < (s.intoRaw ⟨f⟩).2.heap.brk := by
  intro ptr hp
  show ptr < s.heap.brk + max 1 1
  rcases List.mem_append.mp hp with hp | hp
  · exact Nat.lt_of_lt_of_le (hs.lt_brk ptr hp) (Nat.le_add_right _ _)
  · rw [List.mem_singleton.mp hp]
    omega

/-- A refused registration takes its box back at once. -/
theorem registerFailed (hs : Boxes s) (f : DiscoveryCallback) :
    Boxes ((s.intoRaw ⟨f⟩).2.fromRaw s.heap.brk) where
  lt_brk := hs.lt_brk_intoRaw f
  given r reg hr := List.mem_append_left _ (hs.given r reg hr)
  injective := hs.injective
  reclaimed ptr hp := by
    show ReturnedOnce (s.BoxInUse ptr) ((s.heap.reclaimed ++ [s.heap.brk]).count ptr)
    obtain ⟨hgiven, hreclaimed⟩ := hs.brk_notMem
    rcases List.mem_append.mp hp with hp | hp
    · have hne : s.heap.brk ≠ ptr := fun h => hgiven (h ▸ hp)
      rw [List.count_append, List.count_singleton, beq_false_of_ne hne]
      exact hs.reclaimed ptr hp
    · obtain rfl := List.mem_singleton.mp hp
      rw [List.count_append, List.count_eq_zero.mpr hreclaimed, List.count_singleton_self]
      refine ⟨?_, fun _ => rfl⟩
      rintro ⟨r, reg, hr, hptr⟩
      exact absurd (hptr ▸ hs.given r reg hr) hgiven
  only ptr hp := by
    rcases List.mem_append.mp hp with hp | hp
    · exact List.mem_append_left _ (hs.only ptr hp)
    · exact List.mem_append_right _ hp

/-- The box of an accepted registration is out. -/
theorem registered (hs : Boxes s) (f : DiscoveryCallback) {r : DiscoveryRegistrationHandle}
    (hr : s.discoveryRegs.lookup r = none) (n : Nat) :
    Boxes { (s.intoRaw ⟨f⟩).2 with
      counter := n, discoveryRegs := s.discoveryRegs.insert r ⟨s.heap.brk, discoveryFeature⟩ } where
  lt_brk := hs.lt_brk_intoRaw f
  given r' reg hr' := by
    rcases lookup_insert_eq_some.mp hr' with ⟨-, rfl⟩ | ⟨-, hr'⟩
    · exact List.mem_append_right _ (List.mem_singleton_self _)
    · exact List.mem_append_left _ (hs.given r' reg hr')
  injective r₁ r₂ reg₁ reg₂ h₁ h₂ hptr := by
    obtain ⟨hgiven, -⟩ := hs.brk_notMem
    rcases lookup_insert_eq_some.mp h₁ with ⟨hr₁, rfl⟩ | ⟨-, h₁⟩ <;>
      rcases lookup_insert_eq_some.mp h₂ with ⟨hr₂, rfl⟩ | ⟨-, h₂⟩
    · exact hr₁.trans hr₂.symm
    · have hold := hs.given r₂ reg₂ h₂
      rw [← hptr] at hold
      exact absurd hold hgiven
    · have hold := hs.given r₁ reg₁ h₁
      rw [hptr] at hold
      exact absurd hold hgiven
    · exact hs.injective r₁ r₂ reg₁ reg₂ h₁ h₂ hptr
  reclaimed ptr hp := by
    obtain ⟨hgiven, hreclaimed⟩ := hs.brk_notMem
    rcases List.mem_append.mp hp with hp | hp
    · have hne : s.heap.brk ≠ ptr := fun h => hgiven (h ▸ hp)
      rw [ReturnedOnce, FfiState.boxInUse_insert rfl hr hne]
      exact hs.reclaimed ptr hp
    · obtain rfl := List.mem_singleton.mp hp
      refine ⟨fun _ => List.count_eq_zero.mpr hreclaimed, fun hnot => absurd ?_ hnot⟩
      exact ⟨r, ⟨s.heap.brk, discoveryFeature⟩, Finmap.lookup_insert _, rfl⟩
  only ptr hp := List.mem_append_left _ (hs.only ptr hp)

/-- Dropping a registration reclaims its box. -/
theorem unregistered (hs : Boxes s) {r : DiscoveryRegistrationHandle} {reg : DiscoveryRegState}
    (hr : s.discoveryRegs.lookup r = some reg) :
    Boxes ({ s with discoveryRegs := s.discoveryRegs.erase r }.fromRaw reg.ctxPtr) where
  lt_brk := hs.lt_brk
  given r' reg' hr' := hs.given r' reg' (lookup_erase_eq_some.mp hr').2
  injective r₁ r₂ reg₁ reg₂ h₁ h₂ hptr :=
    hs.injective r₁ r₂ reg₁ reg₂ (lookup_erase_eq_some.mp h₁).2 (lookup_erase_eq_some.mp h₂).2 hptr
  reclaimed ptr hp := by
    show ReturnedOnce (FfiState.BoxInUse { s with discoveryRegs := s.discoveryRegs.erase r } ptr)
      ((s.heap.reclaimed ++ [reg.ctxPtr]).count ptr)
    rw [List.count_append, List.count_singleton]
    by_cases hptr : reg.ctxPtr = ptr
    · -- the box of the dropped registration was in use by nobody else
      have hnone :
          ¬ FfiState.BoxInUse { s with discoveryRegs := s.discoveryRegs.erase r } ptr := by
        rintro ⟨r', reg', hr', hptr'⟩
        obtain ⟨hne, hr'⟩ := lookup_erase_eq_some.mp hr'
        exact hne (hs.injective r' r reg' reg hr' hr (hptr'.trans hptr.symm))
      have hcount := (hs.reclaimed ptr hp).1 ⟨r, reg, hr, hptr⟩
      rw [hcount, hptr]
      exact ⟨fun h => absurd h hnone, fun _ => by simp⟩
    · rw [ReturnedOnce, FfiState.boxInUse_erase rfl hr hptr, beq_false_of_ne hptr]
      exact hs.reclaimed ptr hp
  only ptr hp := by
    rcases List.mem_append.mp hp with hp | hp
    · exact hs.only ptr hp
    · rw [List.mem_singleton.mp hp]
      exact hs.given r reg hr

end Boxes

/-- A call keeps the boxes, while the counter has not wrapped. -/
theorem Step.boxes (h : Step s c evs r s') (hs : Boxes s)
    (hfresh : s.counter < 2 ^ 64 → s.discoveryRegs.lookup ⟨s.currentId⟩ = none)
    (hids : s'.counter ≤ 2 ^ 64) : Boxes s' := by
  have hbrk := h.brk_le
  cases h with
  | registerFailed cb f rc hcb hrc => exact hs.registerFailed f
  | registered cb f hcb => exact hs.registered f (hfresh hids) _
  | unregistered r reg rc hreg => exact hs.unregistered hreg
  | _ => exact hs.keep rfl rfl rfl hbrk

/-! ## The invariant -/

variable {τ : Type} {E : FrameCallbackId → Prop}

/-- The adapter is accounted for by the owners. -/
structure Accounted (E : FrameCallbackId → Prop) (s : LoggedState τ) (L : Nat → Holdings) : Prop where
  tables : Tables E s.1 L
  cameras : CamerasBalanced s.1 s.2.2
  boxes : Boxes s.1
  pos : 0 < s.1.counter

theorem accounted_fresh (t : τ) : Accounted E (fresh t) World.empty.holdings where
  tables := tables_new fun _ => rfl
  cameras _ := rfl
  boxes := boxes_new
  pos := Nat.one_pos

theorem serves_accounted (api : VmbApi τ) (E : FrameCallbackId → Prop) :
    Serves protocol (vmbFfiRuntime api.logged) (Accounted E) Holdings.Idle
      fun s => s.1.counter ≤ 2 ^ 64 where
  back := counter_reflects api _
  step s L x c hs hidle hids hc := by
    obtain ⟨evs, hstep, hlog, -⟩ := vmbFfiRuntime_step api s.1 s.2.1 s.2.2 c
    refine ⟨hs.tables.step hc hstep hids fun _ _ y hy => hidle y hy, ?_, ?_, ?_⟩
    · rw [hlog]
      refine hstep.camerasBalanced hs.cameras (fun h hh hlt => ?_) hs.pos hids
      exact present_eq_none.mp (hs.tables.cameras_lt.fresh hlt hh)
    · refine hstep.boxes hs.boxes (fun hlt => ?_) hids
      exact Finmap.lookup_eq_none.mpr
        (present_eq_none.mp (hs.tables.discoveryRegs_lt.fresh hlt rfl))
    · exact Nat.lt_of_lt_of_le hs.pos hstep.counter_le

theorem accounted_system (api : VmbApi τ) {s : LoggedState τ} {L : Nat → Holdings}
    (hs : Accounted E s L) (hc : OfSystem c) :
    Accounted E (vmbFfiRuntime api.logged s c).2 L := by
  obtain ⟨evs, hstep, hlog, -⟩ := vmbFfiRuntime_step api s.1 s.2.1 s.2.2 c
  obtain ⟨⟨b, hstate⟩, hevs⟩ := hstep.system hc
  refine ⟨?_, ?_, ?_, ?_⟩
  · rw [hstate]
    exact { hs.tables with }
  · rw [hlog, hstate]
    exact hs.cameras.append_neutral rfl
      (fun raw e he => opensAs_eq_false_of_quiet (hevs e he) raw)
      fun raw e he => closes_eq_false_of_quiet (hevs e he) raw
  · rw [hstate]
    exact hs.boxes.keep rfl rfl rfl (Nat.le_refl _)
  · rw [hstate]
    exact hs.pos

/-- If the callback may be abandoned, abandoning it goes unnoticed. -/
theorem forgets_accounted {cb : FrameCallbackId} (hE : ¬ E cb) : Forgets (Accounted (τ := τ) E) cb :=
  fun _ _ _ _ hs hx => ⟨hs.tables.abandon fun _ _ => not_promised hx hE, hs.cameras, hs.boxes, hs.pos⟩

theorem accounted_runOps (api : VmbApi τ) (t : τ) (ops : List Op)
    (hids : ((runOps ops .empty).run (vmbFfiRuntime api.logged) (fresh t)).2.1.counter ≤ 2 ^ 64) :
    Accounted (· ∉ abandonedIn (vmbFfiRuntime api.logged) ops .empty (fresh t))
      ((runOps ops .empty).run (vmbFfiRuntime api.logged) (fresh t)).2
      ((runOps ops .empty).run (vmbFfiRuntime api.logged) (fresh t)).1.2.holdings :=
  runOps_serves (serves_accounted api _) (fun _ _ _ hs hc => accounted_system api hs hc) ops .empty
    (fresh t) (accounted_fresh t) (fun _ hcb => forgets_accounted (not_not_intro hcb)) hids

/-! ## The result -/

/-- Between two operations: the tables are those of the live objects, and everything else has been
released once. -/
structure Balanced (s : LoggedState τ) (W : World) : Prop where
  cameras : ∀ h, h ∈ s.1.cameras ↔ W.HasCamera h
  frameCallbacks : ∀ cb, W.CapturesUnder cb → cb ∈ s.1.frameCallbacks
  frames : ∀ slot ∈ s.1.frames, W.HasSlot slot
  discoveryCallbacks : ∀ cb, cb ∈ s.1.discoveryCallbacks ↔ W.SubscribesUnder cb
  discoveryRegs : ∀ r, r ∈ s.1.discoveryRegs ↔ W.RegisteredAs r
  closed : CamerasBalanced s.1 s.2.2
  closedOnce : ∀ raw, s.2.2.countP (opensAs raw) = 1 →
    ReturnedOnce (∃ h, W.HasCamera h ∧ s.1.cameras.lookup h = some raw) (s.2.2.countP (closes raw))
  reclaimed : ∀ ptr ∈ s.1.heap.given,
    ReturnedOnce (∃ r reg, W.RegisteredAs r ∧ s.1.discoveryRegs.lookup r = some reg ∧
      reg.ctxPtr = ptr) (s.1.heap.reclaimed.count ptr)
  reclaimedOnly : ∀ ptr ∈ s.1.heap.reclaimed, ptr ∈ s.1.heap.given

theorem CamerasBalanced.closedOnce {log : List (Event VmbC)} (h : CamerasBalanced s log)
    {raw : VmbHandle} (hone : log.countP (opensAs raw) = 1) :
    ReturnedOnce (∃ h, s.cameras.lookup h = some raw) (log.countP (closes raw)) := by
  have hbal := h raw
  rw [hone] at hbal
  have hopen : (∃ h, s.cameras.lookup h = some raw) ↔ 0 < s.openedAs raw := by
    rw [FfiState.openedAs, Multiset.countP_pos]
    constructor
    · rintro ⟨h, hh⟩
      exact ⟨⟨h, raw⟩, mem_entries_iff.mpr hh, rfl⟩
    · rintro ⟨⟨h, raw'⟩, hmem, rfl⟩
      exact ⟨h, mem_entries_iff.mp hmem⟩
  rw [ReturnedOnce, hopen]
  omega

theorem Accounted.balanced {s : LoggedState τ} {W : World} (hs : Accounted E s W.holdings) :
    Balanced s W := by
  have hcameras : ∀ h, h ∈ s.1.cameras ↔ W.HasCamera h := by
    intro h
    rw [World.hasCamera_iff, ← present_eq_some (u := ()), hs.tables.cameras.eq_some_iff trivial]
    rfl
  have hregs : ∀ r, r ∈ s.1.discoveryRegs ↔ W.RegisteredAs r := by
    intro r
    rw [World.registeredAs_iff, ← present_eq_some (u := ()),
      hs.tables.discoveryRegs.eq_some_iff trivial]
    rfl
  refine ⟨hcameras, fun cb hcb => ?_, fun slot hslot => ?_, fun cb => ?_, hregs, hs.cameras,
    fun raw hone => ?_, fun ptr hp => ?_, hs.boxes.only⟩
  · obtain ⟨x, hx⟩ := World.capturesUnder_iff.mp hcb
    obtain ⟨f, hf⟩ := hs.tables.frameCallback_mem hx
    exact Finmap.mem_of_lookup_eq_some hf
  · exact World.hasSlot_iff.mpr (hs.tables.frames slot hslot)
  · rw [World.subscribesUnder_iff]
    constructor
    · intro hmem
      obtain ⟨f, hf⟩ := Finmap.mem_iff.mp hmem
      obtain ⟨x, hx⟩ := hs.tables.discoveryCallbacks.owned cb f trivial hf
      refine ⟨x, ?_⟩
      rw [Holdings.discoveryCallbackId, show (W.holdings x).discoveryCallback = _ from hx]
      rfl
    · rintro ⟨x, hx⟩
      obtain ⟨f, hf⟩ := hs.tables.discoveryCallback_mem hx
      exact Finmap.mem_of_lookup_eq_some hf
  · have hclosed := hs.cameras.closedOnce hone
    have hiff : (∃ h, W.HasCamera h ∧ s.1.cameras.lookup h = some raw) ↔
        ∃ h, s.1.cameras.lookup h = some raw :=
      exists_congr fun h => and_iff_right_of_imp fun hh =>
        (hcameras h).mp (Finmap.mem_of_lookup_eq_some hh)
    rw [ReturnedOnce, hiff]
    exact hclosed
  · have hiff : (∃ r reg, W.RegisteredAs r ∧ s.1.discoveryRegs.lookup r = some reg ∧
        reg.ctxPtr = ptr) ↔ s.1.BoxInUse ptr :=
      exists_congr fun r => exists_congr fun reg => and_iff_right_of_imp fun hr =>
        (hregs r).mp (Finmap.mem_of_lookup_eq_some hr.1)
    rw [ReturnedOnce, hiff]
    exact hs.boxes.reclaimed ptr hp

/-- The table of frame callbacks holds those of the live sessions only, but for those of `lost`. -/
def NoAbandonedCallback (lost : List FrameCallbackId) (s : LoggedState τ) (W : World) : Prop :=
  ∀ cb ∈ s.1.frameCallbacks, cb ∉ lost → W.CapturesUnder cb

/-- **No leak and no double release.** For every SDK and every sequence of operations that issues
fewer than `2^64` identifiers, the adapter is balanced after it, and holds no frame callback besides but
those of the starts that panicked. No start does whose slot vector can be allocated. -/
theorem resources_balanced (api : VmbApi τ) (t : τ) (ops : List Op)
    (hids : ((runOps ops .empty).run (vmbFfiRuntime api.logged) (fresh t)).2.1.counter ≤ 2 ^ 64) :
    Balanced ((runOps ops .empty).run (vmbFfiRuntime api.logged) (fresh t)).2
        ((runOps ops .empty).run (vmbFfiRuntime api.logged) (fresh t)).1.2 ∧
      NoAbandonedCallback (abandonedIn (vmbFfiRuntime api.logged) ops .empty (fresh t))
        ((runOps ops .empty).run (vmbFfiRuntime api.logged) (fresh t)).2
        ((runOps ops .empty).run (vmbFfiRuntime api.logged) (fresh t)).1.2 ∧
      ((∀ op ∈ ops, op.action.Allocatable) →
        abandonedIn (vmbFfiRuntime api.logged) ops .empty (fresh t) = []) := by
  have hs := accounted_runOps api t ops hids
  refine ⟨hs.balanced, fun cb hcb hkept => ?_, fun hall => abandonedIn_eq_nil hall⟩
  obtain ⟨f, hf⟩ := Finmap.mem_iff.mp hcb
  obtain ⟨x, hx⟩ := hs.tables.frameCallbacks.owned cb f hkept hf
  exact World.capturesUnder_iff.mpr
    ⟨x, by rw [Holdings.callbackId, show (World.holdings _ x).callback = _ from hx]; rfl⟩

/-- A camera captures beside a registration; the camera is dropped while it captures. Its first start has
panicked. -/
def dropWhileCapturing : List Op :=
  [⟨0, none, .openCamera "cam-a"⟩, ⟨1, none, .registerDiscovery ⟨9⟩⟩,
    ⟨0, none, .startCapture (2 ^ 60) ⟨1⟩⟩, ⟨0, none, .startCapture 2 ⟨2⟩⟩, ⟨0, none, .drop⟩]

theorem resources_balanced_dropWhileCapturing :
    Balanced ((runOps dropWhileCapturing .empty).run (vmbFfiRuntime mockApi.logged) (fresh 1)).2
        ((runOps dropWhileCapturing .empty).run (vmbFfiRuntime mockApi.logged) (fresh 1)).1.2 ∧
      NoAbandonedCallback [⟨4⟩]
        ((runOps dropWhileCapturing .empty).run (vmbFfiRuntime mockApi.logged) (fresh 1)).2
        ((runOps dropWhileCapturing .empty).run (vmbFfiRuntime mockApi.logged) (fresh 1)).1.2 := by
  have hlost : abandonedIn (vmbFfiRuntime mockApi.logged) dropWhileCapturing .empty (fresh 1) = [⟨4⟩] := by
    decide +kernel
  obtain ⟨hbalanced, hcallbacks, -⟩ :=
    resources_balanced mockApi 1 dropWhileCapturing (by decide +kernel)
  rw [hlost] at hcallbacks
  exact ⟨hbalanced, hcallbacks⟩

/-- A start with more buffers than a slot vector can hold. -/
def tooManyFrames : List Op :=
  [⟨0, none, .openCamera "cam-a"⟩, ⟨0, none, .startCapture (2 ^ 60) ⟨1⟩⟩, ⟨0, none, .drop⟩]

/-- The panicking start leaves its callback in the table. -/
theorem not_noAbandonedCallback_tooManyFrames :
    ¬ NoAbandonedCallback []
      ((runOps tooManyFrames .empty).run (vmbFfiRuntime mockApi.logged) (fresh 1)).2
      ((runOps tooManyFrames .empty).run (vmbFfiRuntime mockApi.logged) (fresh 1)).1.2 := by
  intro h
  obtain ⟨x, cam, f, session, hx, -⟩ := h ⟨2⟩ (by decide +kernel) List.not_mem_nil
  by_cases hx0 : x = 0
  · subst hx0
    cases hx
  · have hother : ∀ op ∈ tooManyFrames, x ≠ op.target := by simpa [tooManyFrames] using hx0
    rw [run_runOps_other hother] at hx
    cases hx

end Vmb.Ffi

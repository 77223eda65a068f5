/-
# Vmb.Fake.Resources -- the tables of the fake are those of the live objects

Between two operations of a client program the six tables of the fake are exactly those of the live
cameras, sessions and registrations, whatever failures are rigged; an operation that fails leaves
them as they were, and no operation touches the entries of another camera (`tables_correspond`).

The exceptions are those of the adapter: a start that panics, because its slot vector cannot be allocated,
abandons its callback, and after `2^64` identifiers the counter repeats itself.
-/
import Vmb.Core.Alive
import Vmb.Fake.Tables

namespace Vmb.Fake

open Vmb.Lib Vmb.Core

/-! ## The invariant -/

variable {ι : Type} {E : FrameCallbackId → Prop} {s s' : FakeState}

/-- The fake is accounted for by the owners. -/
structure Accounted (E : FrameCallbackId → Prop) (s : FakeState) (L : ι → Holdings) : Prop where
  tables : Tables E s L
  counted : Counted s
  subscribed : ∀ x, Subscribed (L x)

theorem accounted_configured (config : Config) :
    Accounted E (.configured config) World.empty.holdings where
  tables := tables_configured config fun _ => rfl
  counted := counted_configured config
  subscribed _ := fun h => absurd h Bool.false_ne_true

theorem counter_reflects (s : FakeState) (c : PortCall)
    (h : (fakeVmbRuntime s c).2.counter ≤ 2 ^ 64) : s.counter ≤ 2 ^ 64 := by
  obtain ⟨s₁, config, calls, heff, -, hs⟩ := fakeVmbRuntime_step s c
  rw [hs] at h
  exact Nat.le_trans heff.counter_le h

theorem serves_accounted [DecidableEq ι] (E : FrameCallbackId → Prop) :
    Serves protocol fakeVmbRuntime (Accounted (ι := ι) E) Holdings.Idle
      fun s => s.counter ≤ 2 ^ 64 where
  back := counter_reflects
  step s L x c hs _ hids hc := by
    obtain ⟨s₁, config, calls, heff, -, hstate⟩ := fakeVmbRuntime_step s c
    rw [hstate] at hids ⊢
    refine ⟨?_, ?_, fun y => ?_⟩
    · exact { hs.tables.step hs.counted (hs.subscribed x) hc heff hids with }
    · exact { heff.counted hs.counted with }
    · by_cases hy : y = x
      · subst hy
        rw [Function.update_self]
        exact subscribed_afterCall (hs.subscribed y) hc
      · rw [Function.update_of_ne hy]
        exact hs.subscribed y

/-- A call of a `VmbSystem` changes no table. -/
theorem Effect.system {c : PortCall} {r : c.Resp} (h : Effect s c r s') (hc : OfSystem c) :
    ∃ b, s' = { s with started := b } := by
  cases h with
  | failed c e r hr he => exact ⟨s.started, rfl⟩
  | quiet c r hr => exact ⟨s.started, rfl⟩
  | startRefused hs => exact ⟨s.started, rfl⟩
  | started hs => exact ⟨true, rfl⟩
  | stopped => exact ⟨false, rfl⟩
  | _ => simp [OfSystem] at hc

/-- The six tables are the same. -/
structure SameTables (s s' : FakeState) : Prop where
  cameras : s'.cameras = s.cameras
  announcedFrames : s'.announcedFrames = s.announcedFrames
  activeCaptures : s'.activeCaptures = s.activeCaptures
  frameCallbacks : s'.frameCallbacks = s.frameCallbacks
  discoveryCallbacks : s'.discoveryCallbacks = s.discoveryCallbacks
  discoveryRegs : s'.discoveryRegs = s.discoveryRegs

theorem Accounted.system {L : ι → Holdings} (hs : Accounted E s L) {c : PortCall} (hc : OfSystem c) :
    Accounted E (fakeVmbRuntime s c).2 L ∧ SameTables s (fakeVmbRuntime s c).2 := by
  obtain ⟨s₁, config, calls, heff, -, hstate⟩ := fakeVmbRuntime_step s c
  obtain ⟨b, rfl⟩ := heff.system hc
  rw [hstate]
  exact ⟨⟨{ hs.tables with }, { hs.counted with }, hs.subscribed⟩, rfl, rfl, rfl, rfl, rfl, rfl⟩

/-- If the callback may be abandoned, abandoning it goes unnoticed. -/
theorem forgets_accounted {cb : FrameCallbackId} (hE : ¬ E cb) : Forgets (Accounted E) cb := by
  intro s L x f hs hx
  refine ⟨hs.tables.abandon fun _ _ => not_promised hx hE, hs.counted, fun y => ?_⟩
  by_cases hy : y = x
  · subst hy
    rw [Function.update_self]
    exact hs.subscribed y
  · rw [Function.update_of_ne hy]
    exact hs.subscribed y

theorem accounted_op {W : World} (hs : Accounted E s W.holdings) (op : Op)
    (hE : ∀ cb ∈ op.abandons fakeVmbRuntime W s, ¬ E cb)
    (hids : ((op.run W).run fakeVmbRuntime s).2.counter ≤ 2 ^ 64) :
    Accounted E ((op.run W).run fakeVmbRuntime s).2
      ((op.run W).run fakeVmbRuntime s).1.2.holdings :=
  op.run_serves (serves_accounted E) (fun _ _ _ hs hc => (hs.system hc).1) W s hs
    (fun cb hcb => forgets_accounted (hE cb hcb)) hids

theorem accounted_runOps (config : Config) (ops : List Op)
    (hids : ((runOps ops .empty).run fakeVmbRuntime (.configured config)).2.counter ≤ 2 ^ 64) :
    Accounted (· ∉ abandonedIn fakeVmbRuntime ops .empty (.configured config))
      ((runOps ops .empty).run fakeVmbRuntime (.configured config)).2
      ((runOps ops .empty).run fakeVmbRuntime (.configured config)).1.2.holdings :=
  runOps_serves (serves_accounted _) (fun _ _ _ hs hc => (hs.system hc).1) ops .empty
    (.configured config) (accounted_configured config)
    (fun _ hcb => forgets_accounted (not_not_intro hcb)) hids

/-- Without any promise about the callbacks. -/
theorem Accounted.weaken {L : ι → Holdings} (hs : Accounted E s L) : Accounted (fun _ => False) s L where
  tables := { hs.tables with frameCallbacks := hs.tables.frameCallbacks.mono fun _ h => h.elim }
  counted := hs.counted
  subscribed := hs.subscribed

/-! ## Operations that fail -/

/-- What an abandoned callback would hold, if it were an owner. -/
noncomputable def abandoned (s : FakeState) (L : ι → Holdings) (cb : FrameCallbackId) : Holdings :=
  open Classical in
  if ∃ x f, ownsFrameCallback (L x) cb f then {}
  else { callback := (s.frameCallbacks.lookup cb).map fun f => (cb, f) }

theorem ownsFrameCallback_abandoned {L : ι → Holdings} {cb cb' : FrameCallbackId} {f : FrameCallback} :
    ownsFrameCallback (abandoned s L cb) cb' f ↔
      cb' = cb ∧ s.frameCallbacks.lookup cb = some f ∧ ∀ x g, ¬ ownsFrameCallback (L x) cb g := by
  by_cases howned : ∃ x f, ownsFrameCallback (L x) cb f
  · rw [abandoned, if_pos howned]
    obtain ⟨x, g, hown⟩ := howned
    exact ⟨fun h => absurd h (by simp [ownsFrameCallback]), fun h => absurd hown (h.2.2 x g)⟩
  · rw [abandoned, if_neg howned]
    have hnone : ∀ x g, ¬ ownsFrameCallback (L x) cb g := fun x g h => howned ⟨x, g, h⟩
    simp only [ownsFrameCallback, Option.map_eq_some_iff, Prod.mk.injEq]
    constructor
    · rintro ⟨g, hg, rfl, rfl⟩
      exact ⟨rfl, hg, hnone⟩
    · rintro ⟨rfl, hg, -⟩
      exact ⟨f, hg, rfl, rfl⟩

/-- An abandoned callback holds nothing but itself. -/
theorem abandoned_eq (s : FakeState) (L : ι → Holdings) (cb : FrameCallbackId) :
    ∃ callback, abandoned s L cb = { callback := callback } := by
  unfold abandoned
  split
  · exact ⟨none, rfl⟩
  · exact ⟨_, rfl⟩

/-- With the abandoned callbacks as owners of their own, the tables are exactly what is owned. -/
theorem Accounted.adopt {L : ι → Holdings} (hs : Accounted E s L) :
    Accounted (fun _ => True) s (Sum.elim L (abandoned s L)) where
  tables := {
    cameras := hs.tables.cameras.join_idle fun cb h id hown => by
      obtain ⟨callback, heq⟩ := abandoned_eq s L cb
      rw [heq] at hown
      cases hown
    announcedFrames := hs.tables.announcedFrames.join_idle fun cb slot h hown => by
      obtain ⟨callback, heq⟩ := abandoned_eq s L cb
      rw [heq] at hown
      exact absurd hown.1 List.not_mem_nil
    activeCaptures := hs.tables.activeCaptures.join_idle fun cb h w hown => by
      obtain ⟨callback, heq⟩ := abandoned_eq s L cb
      rw [heq] at hown
      cases hown.1
    frameCallbacks := by
      refine hs.tables.frameCallbacks.join (fun cb k f hown => ?_) (fun cb cb' k f g hown hown' => ?_)
        fun k f _ hk => ?_
      · obtain ⟨rfl, hf, hnone⟩ := ownsFrameCallback_abandoned.mp hown
        exact ⟨hf, hnone⟩
      · exact (ownsFrameCallback_abandoned.mp hown).1.symm.trans
          (ownsFrameCallback_abandoned.mp hown').1
      -- every callback in the table has an owner, or has been abandoned and is its own owner
      · by_cases howned : ∃ x g, ownsFrameCallback (L x) k g
        · obtain ⟨x, g, hown⟩ := howned
          have hg := hs.tables.frameCallbacks.covers x k g hown
          rw [hk, Option.some.injEq] at hg
          exact Or.inl ⟨x, hg ▸ hown⟩
        · exact Or.inr ⟨k, ownsFrameCallback_abandoned.mpr
            ⟨rfl, hk, fun x g hown => howned ⟨x, g, hown⟩⟩⟩
    discoveryCallbacks := hs.tables.discoveryCallbacks.join_idle fun cb k f hown => by
      obtain ⟨callback, heq⟩ := abandoned_eq s L cb
      rw [heq] at hown
      cases hown
    discoveryRegs := hs.tables.discoveryRegs.join_idle fun cb r k hown => by
      obtain ⟨callback, heq⟩ := abandoned_eq s L cb
      rw [heq] at hown
      cases hown.1 }
  counted := hs.counted
  subscribed x := by
    rcases x with x | cb
    · exact hs.subscribed x
    · obtain ⟨callback, heq⟩ := abandoned_eq s L cb
      intro hsome
      rw [Sum.elim_inr, heq] at hsome
      exact absurd hsome Bool.false_ne_true

/-- The tables are determined by what is owned. -/
theorem Tables.same {L : ι → Holdings} (hs : Tables (fun _ => True) s L)
    (hs' : Tables (fun _ => True) s' L) :
    SameTables s s' where
  cameras := Finmap.ext_lookup (congrFun (hs'.cameras.eq_table hs.cameras))
  announcedFrames := Finmap.ext_lookup (congrFun (hs'.announcedFrames.eq_table hs.announcedFrames))
  activeCaptures := Finmap.ext_lookup (congrFun (hs'.activeCaptures.eq_table hs.activeCaptures))
  frameCallbacks := Finmap.ext_lookup (congrFun (hs'.frameCallbacks.eq_table hs.frameCallbacks))
  discoveryCallbacks :=
    Finmap.ext_lookup (congrFun (hs'.discoveryCallbacks.eq_table hs.discoveryCallbacks))
  discoveryRegs := Finmap.ext_lookup (congrFun (hs'.discoveryRegs.eq_table hs.discoveryRegs))

/-- An operation that fails leaves the six tables and the world as they were. -/
theorem sameTables_of_failed {W : World} (hs : Accounted E s W.holdings) (op : Op)
    (hids : ((op.run W).run fakeVmbRuntime s).2.counter ≤ 2 ^ 64)
    (hfail : ((op.run W).run fakeVmbRuntime s).1.1.Failed) :
    SameTables s ((op.run W).run fakeVmbRuntime s).2 := by
  by_cases hsys : SystemCall op.action (W op.target)
  · obtain ⟨hstate, -⟩ := Op.run_system (m := fakeVmbRuntime) op W s hsys
    rcases hstate with hstate | ⟨c, hc, hstate⟩
    · rw [hstate]
      exact ⟨rfl, rfl, rfl, rfl, rfl, rfl⟩
    · rw [hstate]
      exact (hs.system hc).2
  -- the abandoned callbacks join the owners, so that the tables determine what is held
  · have hidle : ∀ x, x ≠ Sum.inl op.target →
        (Sum.elim W.holdings (abandoned s W.holdings) x).Idle := by
      rintro (x | cb) -
      · exact W.holdings_idle x
      · obtain ⟨callback, heq⟩ := abandoned_eq s W.holdings cb
        rw [Sum.elim_inr, heq]
        rfl
    obtain ⟨-, hs'⟩ :=
      Op.run_failed (L := Sum.elim W.holdings (abandoned s W.holdings)) (i := Sum.inl op.target)
        (serves_accounted fun _ => True) op W s rfl hidle hs.adopt hsys hids hfail
    exact hs.adopt.tables.same hs'.tables

/-! ## The result -/

/-- The tables are those of the live objects; no registration is incomplete, and no two cameras have
one handle. -/
structure Corresponds (s : FakeState) (W : World) : Prop where
  cameras : ∀ h id, s.cameras.lookup h = some id ↔
    ∃ x cam f, W x = some (.camera cam f) ∧ cam.handle = h ∧ cam.id = id
  announcedFrames : ∀ slot h, s.announcedFrames.lookup slot = some h ↔
    ∃ x cam f session, W x = some (.camera cam f) ∧ cam.session = some session ∧
      slot ∈ session.slots ∧ cam.handle = h
  activeCaptures : ∀ h w, s.activeCaptures.lookup h = some w ↔
    ∃ x cam f session, W x = some (.camera cam f) ∧ cam.session = some session ∧
      cam.handle = h ∧ w = session.slots.map fun slot => (slot, session.callbackId)
  frameCallbacks : ∀ x cam f session, W x = some (.camera cam f) → cam.session = some session →
    s.frameCallbacks.lookup session.callbackId = some f
  discoveryCallbacks : ∀ cb f, s.discoveryCallbacks.lookup cb = some f ↔
    ∃ x reg, W x = some (.registration reg f) ∧ reg.callbackId = some cb
  discoveryRegs : ∀ r cb, s.discoveryRegs.lookup r = some cb ↔
    ∃ x reg f, W x = some (.registration reg f) ∧ reg.handle = some r ∧ reg.callbackId = some cb
  registrations : ∀ x reg f, W x = some (.registration reg f) → ∃ r cb, reg = ⟨some r, some cb⟩
  handles : ∀ x y cam cam' f f', W x = some (.camera cam f) → W y = some (.camera cam' f') →
    cam.handle = cam'.handle → x = y

/-- The table of frame callbacks holds the closures of the live sessions only, but for those of `lost`. -/
def NoAbandonedCallback (lost : List FrameCallbackId) (s : FakeState) (W : World) : Prop :=
  ∀ cb f, s.frameCallbacks.lookup cb = some f → cb ∉ lost → ∃ x cam session, W x = some (.camera cam f) ∧
    cam.session = some session ∧ session.callbackId = cb

/-- The entries of the camera are the same. -/
structure SameEntries (s s' : FakeState) (cam : Camera) : Prop where
  cameras : s'.cameras.lookup cam.handle = s.cameras.lookup cam.handle
  announcedFrames : ∀ slot, s'.announcedFrames.lookup slot = some cam.handle ↔
    s.announcedFrames.lookup slot = some cam.handle
  activeCaptures : s'.activeCaptures.lookup cam.handle = s.activeCaptures.lookup cam.handle
  frameCallbacks : ∀ session, cam.session = some session →
    s'.frameCallbacks.lookup session.callbackId = s.frameCallbacks.lookup session.callbackId

section OwnedBy

variable {obj : Option Object}

theorem ownsSlot_ownedBy {slot : FrameSlotId} {h : CameraHandle} :
    ownsSlot (ownedBy obj) slot h ↔ ∃ cam f session, obj = some (.camera cam f) ∧
      cam.session = some session ∧ slot ∈ session.slots ∧ cam.handle = h := by
  rcases obj with - | - | ⟨⟨h', id', - | session⟩, f⟩ | ⟨reg, f⟩ <;>
    simp [ownsSlot, ownedBy, Object.holdings, Holdings.handle, Holdings.opened, Holdings.installed,
      Holdings.capturing]

theorem ownsCapture_ownedBy {h : CameraHandle} {w : List (FrameSlotId × FrameCallbackId)} :
    ownsCapture (ownedBy obj) h w ↔ ∃ cam f session, obj = some (.camera cam f) ∧
      cam.session = some session ∧ cam.handle = h ∧
      w = session.slots.map fun slot => (slot, session.callbackId) := by
  rcases obj with - | - | ⟨⟨h', id', - | session⟩, f⟩ | ⟨reg, f⟩ <;>
    simp [ownsCapture, ownedBy, Object.holdings, Holdings.handle, Holdings.opened,
      Holdings.installed, Holdings.capturing, eq_comm]

theorem ownsRegistration_ownedBy {r : DiscoveryRegistrationHandle} {cb : DiscoveryCallbackId} :
    ownsRegistration (ownedBy obj) r cb ↔ ∃ reg f, obj = some (.registration reg f) ∧
      reg.handle = some r ∧ reg.callbackId = some cb := by
  rcases obj with - | - | ⟨⟨h', id', - | session⟩, f⟩ | ⟨reg, f⟩ <;>
    simp [ownsRegistration, ownedBy, Object.holdings, Holdings.discoveryCallbackId,
      Holdings.opened, Holdings.installed, Holdings.capturing]

end OwnedBy

theorem Accounted.corresponds {W : World} (hs : Accounted E s W.holdings) (hW : W.Complete) :
    Corresponds s W := by
  refine ⟨fun h id => ?_, fun slot h => ?_, fun h w => ?_, fun x cam f session hx hsession => ?_,
    fun cb f => ?_, fun r cb => ?_, fun x reg f hx => hW x _ hx reg f rfl,
    fun x y cam cam' f f' hx hy hh => ?_⟩
  · rw [hs.tables.cameras.eq_some_iff trivial]
    exact exists_congr fun x => camera_ownedBy
  · rw [hs.tables.announcedFrames.eq_some_iff trivial]
    exact exists_congr fun x => ownsSlot_ownedBy
  · rw [hs.tables.activeCaptures.eq_some_iff trivial]
    exact exists_congr fun x => ownsCapture_ownedBy
  · exact hs.tables.frameCallbacks.covers x _ f (callback_ownedBy.mpr ⟨cam, session, hx, hsession, rfl⟩)
  · rw [hs.tables.discoveryCallbacks.eq_some_iff trivial]
    exact exists_congr fun x => discoveryCallback_ownedBy
  · rw [hs.tables.discoveryRegs.eq_some_iff trivial]
    exact exists_congr fun x => ownsRegistration_ownedBy
  · exact hs.tables.eq_of_handle (handle_ownedBy.mpr ⟨cam, f, hx, rfl⟩)
      (handle_ownedBy.mpr ⟨cam', f', hy, hh.symm⟩)

namespace Corresponds

variable {W W' : World} {y : Nat} {cam : Camera} {f : FrameCallback}

theorem owner_eq (hs : Corresponds s W) (hy : W y = some (.camera cam f)) {x : Nat} {cam' : Camera}
    {f' : FrameCallback} (hx : W x = some (.camera cam' f')) (hh : cam'.handle = cam.handle) :
    cam' = cam := by
  obtain rfl := hs.handles x y cam' cam f' f hx hy hh
  rw [hx] at hy
  cases hy
  rfl

theorem announced_iff (hs : Corresponds s W) (hy : W y = some (.camera cam f)) (slot : FrameSlotId) :
    s.announcedFrames.lookup slot = some cam.handle ↔
      ∃ session, cam.session = some session ∧ slot ∈ session.slots := by
  rw [hs.announcedFrames]
  constructor
  · rintro ⟨x, cam', f', session, hx, hsession, hslot, hh⟩
    obtain rfl := hs.owner_eq hy hx hh
    exact ⟨session, hsession, hslot⟩
  · rintro ⟨session, hsession, hslot⟩
    exact ⟨y, cam, f, session, hy, hsession, hslot, rfl⟩

theorem capture_iff (hs : Corresponds s W) (hy : W y = some (.camera cam f))
    (w : List (FrameSlotId × FrameCallbackId)) :
    s.activeCaptures.lookup cam.handle = some w ↔ ∃ session, cam.session = some session ∧
      w = session.slots.map fun slot => (slot, session.callbackId) := by
  rw [hs.activeCaptures]
  constructor
  · rintro ⟨x, cam', f', session, hx, hsession, hh, hw⟩
    obtain rfl := hs.owner_eq hy hx hh
    exact ⟨session, hsession, hw⟩
  · rintro ⟨session, hsession, hw⟩
    exact ⟨y, cam, f, session, hy, hsession, rfl, hw⟩

/-- A camera that lives in two worlds has the same entries in their tables. -/
theorem sameEntries (hs : Corresponds s W) (hs' : Corresponds s' W')
    (hy : W y = some (.camera cam f)) (hy' : W' y = some (.camera cam f)) : SameEntries s s' cam where
  cameras := by
    rw [(hs.cameras cam.handle cam.id).mpr ⟨y, cam, f, hy, rfl, rfl⟩]
    exact (hs'.cameras cam.handle cam.id).mpr ⟨y, cam, f, hy', rfl, rfl⟩
  announcedFrames slot := by rw [hs'.announced_iff hy', hs.announced_iff hy]
  activeCaptures := by
    refine Option.ext fun w => ?_
    rw [hs'.capture_iff hy', hs.capture_iff hy]
  frameCallbacks session hsession := by
    rw [hs.frameCallbacks y cam f session hy hsession]
    exact hs'.frameCallbacks y cam f session hy' hsession

end Corresponds

/-- What one more operation does to the tables: nothing if it fails, and nothing to the entries of
another camera. -/
structure Local (s : FakeState) (W : World) (op : Op) : Prop where
  failed : ((op.run W).run fakeVmbRuntime s).1.1.Failed →
    SameTables s ((op.run W).run fakeVmbRuntime s).2
  others : ∀ y cam f, y ≠ op.target → W y = some (.camera cam f) →
    SameEntries s ((op.run W).run fakeVmbRuntime s).2 cam

/-- **The tables are those of the live objects.** For every schedule of rigged failures and every
sequence of operations that issues fewer than `2^64` identifiers, the tables correspond to the world
after it, with no callback besides but those of the starts that panicked, and no start does whose slot
vector can be allocated; and the next operation changes the entries of its own object only, and nothing if
it fails. -/
theorem tables_correspond (config : Config) (ops : List Op)
    (hids : ((runOps ops .empty).run fakeVmbRuntime (.configured config)).2.counter ≤ 2 ^ 64) :
    Corresponds ((runOps ops .empty).run fakeVmbRuntime (.configured config)).2
        ((runOps ops .empty).run fakeVmbRuntime (.configured config)).1.2 ∧
      NoAbandonedCallback (abandonedIn fakeVmbRuntime ops .empty (.configured config))
        ((runOps ops .empty).run fakeVmbRuntime (.configured config)).2
        ((runOps ops .empty).run fakeVmbRuntime (.configured config)).1.2 ∧
      ((∀ op ∈ ops, op.action.Allocatable) →
        abandonedIn fakeVmbRuntime ops .empty (.configured config) = []) ∧
      ∀ op : Op,
        ((op.run ((runOps ops .empty).run fakeVmbRuntime (.configured config)).1.2).run fakeVmbRuntime
          ((runOps ops .empty).run fakeVmbRuntime (.configured config)).2).2.counter ≤ 2 ^ 64 →
        Local ((runOps ops .empty).run fakeVmbRuntime (.configured config)).2
          ((runOps ops .empty).run fakeVmbRuntime (.configured config)).1.2 op := by
  have hs := accounted_runOps config ops hids
  have hW := runOps_complete (m := fakeVmbRuntime) ops complete_empty (.configured config)
  refine ⟨hs.corresponds hW, fun cb f hcb hkept => ?_, fun hall => abandonedIn_eq_nil hall,
    fun op hids' => ⟨?_, fun y cam f hy hcam => ?_⟩⟩
  · obtain ⟨x, hx⟩ := hs.tables.frameCallbacks.owned cb f hkept hcb
    exact ⟨x, callback_ownedBy.mp hx⟩
  · exact sameTables_of_failed hs op hids'
  · have hs' := accounted_op hs.weaken op (fun _ _ => id) hids'
    refine (hs.corresponds hW).sameEntries (hs'.corresponds (op.run_complete hW _)) hcam ?_
    exact (op.run_other _ _ hy).trans hcam

/-- Two cameras and a registration; the third `queue_frame` fails, in the second capture, and the next start
of that camera panics. -/
def secondCaptureFails : List Op :=
  [⟨0, none, .openCamera "cam-a"⟩, ⟨1, none, .openCamera "cam-b"⟩, ⟨2, none, .registerDiscovery ⟨9⟩⟩,
    ⟨0, none, .startCapture 2 ⟨1⟩⟩, ⟨1, none, .startCapture 2 ⟨2⟩⟩, ⟨1, none, .startCapture (2 ^ 60) ⟨3⟩⟩,
    ⟨2, none, .drop⟩]

theorem tables_correspond_secondCaptureFails :
    let s := (FakeState.new.failNth .queueFrame 2 .notStarted).config
    let r := (runOps secondCaptureFails .empty).run fakeVmbRuntime (.configured s)
    Corresponds r.2 r.1.2 ∧ NoAbandonedCallback [⟨11⟩] r.2 r.1.2 ∧
      Local r.2 r.1.2 ⟨0, none, .stopCapture⟩ := by
  have hlost : abandonedIn fakeVmbRuntime secondCaptureFails .empty
      (.configured (FakeState.new.failNth .queueFrame 2 .notStarted).config) = [⟨11⟩] := by decide +kernel
  obtain ⟨hcorresponds, hcallbacks, -, hlocal⟩ := tables_correspond
    (FakeState.new.failNth .queueFrame 2 .notStarted).config secondCaptureFails (by decide +kernel)
  rw [hlost] at hcallbacks
  exact ⟨hcorresponds, hcallbacks, hlocal _ (by decide +kernel)⟩

/-- A start with more buffers than a slot vector can hold. -/
def tooManySlots : List Op :=
  [⟨0, none, .openCamera "cam-a"⟩, ⟨0, none, .startCapture (2 ^ 60) ⟨1⟩⟩]

/-- The panicking start leaves its callback in the table. -/
theorem not_noAbandonedCallback_tooManySlots :
    ¬ NoAbandonedCallback [] ((runOps tooManySlots .empty).run fakeVmbRuntime .new).2
      ((runOps tooManySlots .empty).run fakeVmbRuntime .new).1.2 := by
  intro h
  obtain ⟨x, cam, session, hx, -⟩ := h ⟨2⟩ ⟨1⟩ (by decide +kernel) List.not_mem_nil
  by_cases hx0 : x = 0
  · subst hx0
    cases hx
  · have hother : ∀ op ∈ tooManySlots, x ≠ op.target := by simpa [tooManySlots] using hx0
    rw [run_runOps_other hother] at hx
    cases hx

end Vmb.Fake

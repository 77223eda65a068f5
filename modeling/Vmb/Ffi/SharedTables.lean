/-
# Vmb.Ffi.SharedTables -- the tables of the adapter under interleaving

Threads that own an object of the domain layer each file its identifiers in the tables of one
`VmbFfiRuntime`: the camera, the frame callback, the slots, the discovery callback and the registration.
Here the tables are read as shelves (`Vmb.Lib.Shelves`). Whatever the SDK answers and however the atomic
steps interleave, the tables hold what the objects hold, and when no operation is running they hold
nothing else (`tables_shared`): nothing leaks, and no thread loses what it has to another one.

Only the slots may be lost: `frame_revoke_all` of one camera clears the slots of all of them.
-/
import Vmb.Core.Agreement
import Vmb.Ffi.Owners
import Vmb.Lib.Shelves

namespace Vmb.Ffi

open Vmb.Lib Vmb.Core Vmb.Sdk

variable {ι τ : Type}

/-! ## Entries -/

/-- An entry of a table, with the closure if it is a callback. -/
inductive TableEntry where
  | camera (h : CameraHandle)
  | slot (slot : FrameSlotId)
  | frameCallback (id : FrameCallbackId) (cb : FrameCallback)
  | discoveryCallback (id : DiscoveryCallbackId) (cb : DiscoveryCallback)
  | registration (r : DiscoveryRegistrationHandle)
  deriving DecidableEq

/-- The identifier the entry is filed under. -/
def TableEntry.key : TableEntry → Ident
  | .camera h => .camera h
  | .slot s => .slot s
  | .frameCallback id _ => .frameCallback id
  | .discoveryCallback id _ => .discoveryCallback id
  | .registration r => .registration r

/-- `frame_revoke_all` takes the slots of all cameras. -/
def TableEntry.Kept (e : TableEntry) : Prop := ∀ slot, e ≠ .slot slot

/-- The entry an access makes. -/
def puts : AtomicStep → Option TableEntry
  | .access (.insertCamera h _) => some (.camera h)
  | .access (.insertFrame slot _) => some (.slot slot)
  | .access (.insertFrameCallback id cb) => some (.frameCallback id cb)
  | .access (.insertDiscoveryCallback id cb) => some (.discoveryCallback id cb)
  | .access (.insertReg r _) => some (.registration r)
  | _ => none

/-- The identifiers an access removes from their tables. -/
def removes : AtomicStep → Ident → Bool
  | .access (.removeCamera h), .camera h' => h' = h
  | .access .clearFrames, .slot _ => true
  | .access (.removeFrameCallback id), .frameCallback id' => id' = id
  | .access (.removeDiscoveryCallback id), .discoveryCallback id' => id' = id
  | .access (.removeReg r), .registration r' => r' = r
  | _, _ => false

def FfiState.HasEntry (s : FfiState) : TableEntry → Prop
  | .camera h => h ∈ s.cameras
  | .slot slot => slot ∈ s.frames
  | .frameCallback id cb => s.frameCallbacks.lookup id = some cb
  | .discoveryCallback id cb => s.discoveryCallbacks.lookup id = some cb
  | .registration r => r ∈ s.discoveryRegs

/-- The tables of the adapter. Every entry but a slot belongs to one thread. -/
def tables (τ : Type) : Shelves (register τ) TableEntry where
  entries x := {e | x.1.HasEntry e}
  guard := TableEntry.key
  about c := {k | (register τ).kind c = .file k ∨ removes c k = true ∧ ∀ slot, k ≠ .slot slot}
  act c es := {e | (e ∈ es ∨ puts c = some e) ∧ removes c e.key = false}
  Own := TableEntry.Kept

theorem patchFrame_frames (s : FfiState) (slot : FrameSlotId) (cb : FrameCallback) (slot' : FrameSlotId) :
    slot' ∈ (s.access (.patchFrame slot cb)).2.frames ↔ slot' ∈ s.frames := by
  unfold FfiState.access
  rcases hctx : s.frames.lookup slot with - | ctx
  · simp only [hctx]
  · have hmem := Finmap.mem_of_lookup_eq_some hctx
    simp only [hctx, Finmap.mem_insert]
    constructor
    · rintro (rfl | h)
      · exact hmem
      · exact h
    · exact Or.inr

/-- **An access changes the entries as it says.** -/
theorem hasEntry_access (s : FfiState) (c : Access) (e : TableEntry)
    (habsent : ∀ e', puts (.access c) = some e' → ¬ s.Has e'.key) :
    (s.access c).2.HasEntry e ↔
      (s.HasEntry e ∨ puts (.access c) = some e) ∧ removes (.access c) e.key = false := by
  have hquiet : puts (.access c) = none → removes (.access c) e.key = false →
      ((s.access c).2.HasEntry e ↔ s.HasEntry e) → ((s.access c).2.HasEntry e ↔
        (s.HasEntry e ∨ puts (.access c) = some e) ∧ removes (.access c) e.key = false) :=
    fun hputs htakes hsame => by simp [hputs, htakes, hsame]
  cases c with
  | insertCamera h raw =>
      cases e <;> simp [FfiState.access, FfiState.HasEntry, puts, removes, or_comm, eq_comm]
  | insertFrame slot ctx =>
      cases e <;> simp [FfiState.access, FfiState.HasEntry, puts, removes, or_comm, eq_comm]
  | insertReg r reg =>
      cases e <;> simp [FfiState.access, FfiState.HasEntry, puts, removes, or_comm, eq_comm]
  | insertFrameCallback id cb =>
      have hid : id ∉ s.frameCallbacks := habsent _ rfl
      cases e <;> simp [FfiState.access, FfiState.HasEntry, puts, removes, lookup_insert_absent hid]
  | insertDiscoveryCallback id cb =>
      have hid : id ∉ s.discoveryCallbacks := habsent _ rfl
      cases e <;> simp [FfiState.access, FfiState.HasEntry, puts, removes, lookup_insert_absent hid]
  | removeCamera h =>
      cases e <;> simp [FfiState.access, FfiState.HasEntry, puts, removes, TableEntry.key, and_comm]
  | removeReg r =>
      cases e <;> simp [FfiState.access, FfiState.HasEntry, puts, removes, TableEntry.key, and_comm]
  | removeFrameCallback id =>
      cases e <;>
        simp [FfiState.access, FfiState.HasEntry, puts, removes, TableEntry.key, lookup_erase_eq_some,
          and_comm]
  | removeDiscoveryCallback id =>
      cases e <;>
        simp [FfiState.access, FfiState.HasEntry, puts, removes, TableEntry.key, lookup_erase_eq_some,
          and_comm]
  | clearFrames =>
      cases e <;>
        simp [FfiState.access, FfiState.HasEntry, puts, removes, TableEntry.key, Finmap.notMem_empty]
  | patchFrame slot cb =>
      refine hquiet rfl (by cases e <;> rfl) ?_
      cases e
      case slot slot' => exact patchFrame_frames s slot cb slot'
      all_goals
        rw [FfiState.access]
        split <;> exact Iff.rfl
  | _ => exact hquiet rfl (by cases e <;> rfl) (by cases e <;> exact Iff.rfl)

theorem kind_of_puts {c : AtomicStep} {e : TableEntry} (he : puts c = some e) :
    (register τ).kind c = .file e.key := by
  rcases c with c | c
  · cases he
  · cases c <;> cases he <;> rfl

theorem TableEntry.Kept.key_ne {e : TableEntry} (he : e.Kept) (slot : FrameSlotId) : e.key ≠ .slot slot := by
  cases e
  case slot s => exact absurd rfl (he s)
  all_goals exact fun h => nomatch h

theorem tables_obeys (api : VmbApi τ) : (tables τ).Obeys (stepMachine api) where
  changed x c habsent := by
    ext e
    rcases c with c | c
    · show x.1.HasEntry e ↔ (x.1.HasEntry e ∨ (none : Option TableEntry) = some e) ∧ false = false
      simp
    · exact hasEntry_access x.1 c e fun e' he' => habsent _ (kind_of_puts he')
  frame c es e hown habout := by
    constructor
    · rintro ⟨h | h, -⟩
      · exact h
      · exact absurd (Or.inl (kind_of_puts h)) habout
    · refine fun h => ⟨Or.inl h, Bool.eq_false_of_not_eq_true fun htaken => habout ?_⟩
      exact Or.inr ⟨htaken, hown.key_ne⟩
  reads c es es' hagree e hown habout :=
    and_congr_left fun _ => or_congr_left (hagree e hown habout)
  shared c es es' e _ he hmem := ⟨he.1.imp_left hmem, he.2⟩

/-! ## What an owner has in the tables -/

def Tabled (v : Holdings) : TableEntry → Prop
  | .camera h => v.handle = some h
  | .slot slot => slot ∈ v.slots
  | .frameCallback id cb => v.callback = some (id, cb)
  | .discoveryCallback id cb => v.discoveryCallback = some (id, cb)
  | .registration r => v.registration = some r

/-- The thread of the owner has its entries on the shelf, and has filed their identifiers. -/
structure InTables (v : Holdings) (w : Shelf Ident TableEntry) : Prop where
  entries : ∀ e, e ∈ w.entries ↔ Tabled v e
  keys : ∀ e, Tabled v e → e.key ∈ w.keys

/-- A thread counts on finding its camera: `frame_revoke_all` does nothing without one. -/
def FindsCamera (w : Shelf Ident TableEntry) : (c : AtomicStep) → c.Resp → Prop
  | .access (.getCamera h), found => .camera h ∈ w.entries → found ≠ none
  | _, _ => True

variable (τ) in
/-- The contract of a thread that counts on it. -/
noncomputable abbrev trustingTables : Contract Steps (Option (Shelf Ident TableEntry)) :=
  (tables τ).keeping.trusting FindsCamera

variable {v v' : Holdings} {w : Shelf Ident TableEntry} {α : Type} {Q : α → Shelf Ident TableEntry → Prop}

/-- A step is allowed to a thread that has filed the identifiers it removes. -/
theorem pre_of_removes {c : AtomicStep}
    (h : ∀ k, (∀ slot, k ≠ .slot slot) → removes c k = true → k ∈ w.keys) : (tables τ).keeping.pre w c := by
  rintro k (hkind | ⟨hremoves, hkept⟩)
  · exact Or.inr hkind
  · exact Or.inl (h k hkept hremoves)

theorem pre_of_removes_nothing {c : AtomicStep} (h : ∀ k, removes c k = false) :
    (tables τ).keeping.pre w c :=
  pre_of_removes fun k _ hremoves => by
    rw [h k] at hremoves
    cases hremoves

/-- The entries of the owner after a step. -/
theorem InTables.next (h : InTables v w) {c : AtomicStep} {r : c.Resp}
    (hv : ∀ e, Tabled v' e ↔ (Tabled v e ∨ puts c = some e) ∧ removes c e.key = false) :
    InTables v' ((tables τ).keeping.next w c r) where
  entries e := by
    rw [hv e, ← h.entries e]
    rfl
  keys e he := by
    rcases ((hv e).mp he).1 with hold | hput
    · exact List.mem_append_left _ (h.keys e hold)
    · exact List.mem_append_right _ (Shelves.mem_filedBy.mpr (kind_of_puts hput))

theorem InTables.congr (h : InTables v w) (hcamera : v'.camera = v.camera) (hslots : v'.slots = v.slots)
    (hcallback : v'.callback = v.callback) (hdiscovery : v'.discoveryCallback = v.discoveryCallback)
    (hregistration : v'.registration = v.registration) : InTables v' w := by
  have hsame : ∀ e, Tabled v' e ↔ Tabled v e := fun e => by
    cases e <;> simp only [Tabled, Holdings.handle, hcamera, hslots, hcallback, hdiscovery, hregistration]
  exact ⟨fun e => (h.entries e).trans (hsame e).symm, fun e he => h.keys e ((hsame e).mp he)⟩

/-- A step that is not about the tables leaves the shelf as it is. -/
theorem next_offTables {c : AtomicStep} {r : c.Resp} (hputs : puts c = none)
    (hremoves : ∀ k, removes c k = false) : (tables τ).keeping.next w c r = w := by
  have hfiled : Shelves.filedBy (register τ) c = [] := by
    refine List.eq_nil_iff_forall_not_mem.mpr fun k hk => ?_
    rw [Shelves.mem_filedBy] at hk
    rcases c with c | c
    · cases hk
    · cases c <;> cases hk <;> cases hputs
  have hact : (tables τ).act c w.entries = w.entries := by
    ext e
    show (e ∈ w.entries ∨ puts c = some e) ∧ removes c e.key = false ↔ e ∈ w.entries
    simp [hputs, hremoves]
  show (⟨w.keys ++ Shelves.filedBy (register τ) c, (tables τ).act c w.entries⟩ : Shelf _ _) = w
  rw [hfiled, hact, List.append_nil]

theorem meets_offTables {c : AtomicStep} {k : c.Resp → Prog Steps α} (hputs : puts c = none)
    (hremoves : ∀ k, removes c k = false)
    (hk : ∀ r, FindsCamera w c r → (k r).Meets (trustingTables τ) (Trusted Q) (some w)) :
    (Prog.call (S := Steps) c k).Meets (trustingTables τ) (Trusted Q) (some w) := by
  refine Prog.meets_trusting_call (pre_of_removes_nothing hremoves) fun r hr => ?_
  rw [next_offTables hputs hremoves]
  exact hk r hr

variable (τ) in
/-- The method keeps the contract, and leaves the entries the owner has after it. -/
def KeepsTables (v : Holdings) (w : Shelf Ident TableEntry) (c : PortCall) : Prop :=
  (steps c).Meets (trustingTables τ) (Trusted fun r w' => InTables (afterCall v c r) w') (some w)

section Methods

theorem openCamera_keepsTables (hv : InTables v w) (id : String) (hmay : mayCall v (.openCamera id)) :
    KeepsTables τ v w (.openCamera id) := by
  have hempty : v = {} := hmay
  show (Atomic.openCamera id).Meets _ _ _
  unfold Atomic.openCamera Atomic.nextId
  cases CString.new (bytes id) with
  | none => exact Prog.meets_trusting_done hv
  | some cId =>
      refine meets_offTables rfl (fun _ => rfl) fun a _ => ?_
      dsimp only [Prog.bind]
      cases check a.1 with
      | error e => exact Prog.meets_trusting_done hv
      | ok _ =>
          refine meets_offTables rfl (fun _ => rfl) fun n _ => ?_
          dsimp only [Prog.bind]
          by_cases hn : n ≠ 0
          · rw [dif_pos hn]
            refine Prog.meets_trusting_call (pre_of_removes_nothing fun _ => rfl) ?_
            refine fun _ _ => Prog.meets_trusting_done (hv.next fun e => ?_)
            subst hempty
            cases e <;> simp [Tabled, afterCall, puts, removes, Holdings.handle]
          · rw [dif_neg hn]
            exact Prog.meets_trusting_done hv

theorem closeCamera_keepsTables (hv : InTables v w) {h : CameraHandle} (hmay : mayCall v (.closeCamera h)) :
    KeepsTables τ v w (.closeCamera h) := by
  obtain ⟨id, hcamera⟩ := Holdings.handle_eq_some.mp hmay.1
  refine Prog.meets_trusting_call (pre_of_removes fun k _ hremoves => ?_) fun found _ => ?_
  · cases k <;> simp [removes] at hremoves
    subst hremoves
    exact hv.keys (.camera _) hmay.1
  · have hnext : InTables (afterCall v (.closeCamera h) ())
        ((tables τ).keeping.next w (.access (.removeCamera h)) found) := hv.next fun e => by
      cases e <;> simp [Tabled, afterCall, hcamera, puts, removes, TableEntry.key, eq_comm,
        Holdings.handle]
    cases found with
    | none => exact Prog.meets_trusting_done hnext
    | some raw => exact meets_offTables rfl (fun _ => rfl) fun _ _ => Prog.meets_trusting_done hnext

theorem announceFrame_keepsTables (hv : InTables v w) {h : CameraHandle} (size : UInt32) :
    KeepsTables τ v w (.announceFrame h size) := by
  have hfails : ∀ e, InTables (afterCall v (.announceFrame h size) (.error e)) w := fun _ =>
    hv.congr rfl rfl rfl rfl rfl
  refine meets_offTables rfl (fun _ => rfl) fun found _ => ?_
  cases found with
  | none => exact Prog.meets_trusting_done (hfails _)
  | some raw =>
      refine meets_offTables rfl (fun _ => rfl) fun ctx _ => ?_
      refine meets_offTables rfl (fun _ => rfl) fun rc _ => ?_
      dsimp only [Prog.bind]
      cases check rc with
      | error e => exact Prog.meets_trusting_done (hfails _)
      | ok _ =>
          refine meets_offTables rfl (fun _ => rfl) fun slot _ => ?_
          refine Prog.meets_trusting_call (pre_of_removes_nothing fun _ => rfl) ?_
          refine fun _ _ => Prog.meets_trusting_done (hv.next fun e => ?_)
          cases e <;> simp [Tabled, afterCall, puts, removes, Holdings.handle, eq_comm]

/-- `frame_revoke_all` finds the camera and takes all slots. -/
theorem frameRevokeAll_keepsTables (hv : InTables v w) {h : CameraHandle}
    (hmay : mayCall v (.frameRevokeAll h)) : KeepsTables τ v w (.frameRevokeAll h) := by
  refine meets_offTables rfl (fun _ => rfl) fun found hfound => ?_
  cases found with
  | none => exact absurd rfl (hfound ((hv.entries (.camera h)).mpr hmay.1))
  | some raw =>
      refine meets_offTables rfl (fun _ => rfl) fun rc _ => ?_
      refine Prog.meets_trusting_call (pre_of_removes fun k hkept hremoves => ?_) ?_
      · cases k <;> simp [removes] at hremoves
        exact absurd rfl (hkept _)
      · refine fun _ _ => Prog.meets_trusting_done (hv.next fun e => ?_)
        cases e <;> simp [Tabled, afterCall, puts, removes, TableEntry.key, Holdings.handle]

theorem registerDiscovery_keepsTables (hv : InTables v w) {cb : DiscoveryCallbackId}
    (hmay : mayCall v (.registerDiscovery cb)) : KeepsTables τ v w (.registerDiscovery cb) := by
  have hnone : v.registration = none := hmay.2
  refine meets_offTables rfl (fun _ => rfl) fun callback _ => ?_
  cases callback with
  | none => exact Prog.meets_trusting_done hv
  | some callback =>
      dsimp only [Prog.bind]
      cases CString.new (bytes FfiState.featureEventCameraDiscovery) with
      | none => exact Prog.meets_trusting_done hv
      | some feature =>
          refine meets_offTables rfl (fun _ => rfl) fun ctxPtr _ => ?_
          refine meets_offTables rfl (fun _ => rfl) fun rc _ => ?_
          dsimp only [Prog.bind]
          cases check rc with
          | error e =>
              exact meets_offTables rfl (fun _ => rfl) fun _ _ => Prog.meets_trusting_done hv
          | ok _ =>
              refine meets_offTables rfl (fun _ => rfl) fun handle _ => ?_
              refine Prog.meets_trusting_call (pre_of_removes_nothing fun _ => rfl) ?_
              refine fun _ _ => Prog.meets_trusting_done (hv.next fun e => ?_)
              cases e <;> simp [Tabled, afterCall, puts, removes, Holdings.handle, hnone]

theorem unregisterDiscovery_keepsTables (hv : InTables v w) {r : DiscoveryRegistrationHandle}
    (hmay : mayCall v (.unregisterDiscovery r)) : KeepsTables τ v w (.unregisterDiscovery r) := by
  have hregistration : v.registration = some r := hmay
  refine Prog.meets_trusting_call (pre_of_removes fun k _ hremoves => ?_) fun found _ => ?_
  · cases k <;> simp [removes] at hremoves
    subst hremoves
    exact hv.keys (.registration _) hregistration
  · have hnext : InTables (afterCall v (.unregisterDiscovery r) ())
        ((tables τ).keeping.next w (.access (.removeReg r)) found) := hv.next fun e => by
      cases e <;> simp [Tabled, afterCall, hregistration, puts, removes, TableEntry.key, eq_comm,
        Holdings.handle]
    cases found with
    | none => exact Prog.meets_trusting_done hnext
    | some reg =>
        exact meets_offTables rfl (fun _ => rfl) fun _ _ =>
          meets_offTables rfl (fun _ => rfl) fun _ _ => Prog.meets_trusting_done hnext

theorem installFrameCallback_keepsTables (hv : InTables v w) (cb : FrameCallback)
    (hmay : mayCall v (.installFrameCallback cb)) : KeepsTables τ v w (.installFrameCallback cb) := by
  have hnone : v.callback = none := hmay.2
  refine meets_offTables rfl (fun _ => rfl) fun id _ => ?_
  refine Prog.meets_trusting_call (pre_of_removes_nothing fun _ => rfl) ?_
  refine fun _ _ => Prog.meets_trusting_done (hv.next fun e => ?_)
  cases e <;> simp [Tabled, afterCall, puts, removes, Holdings.handle, hnone]

theorem installDiscoveryCallback_keepsTables (hv : InTables v w) (cb : DiscoveryCallback)
    (hmay : mayCall v (.installDiscoveryCallback cb)) :
    KeepsTables τ v w (.installDiscoveryCallback cb) := by
  have hempty : v = {} := hmay
  subst hempty
  refine meets_offTables rfl (fun _ => rfl) fun id _ => ?_
  refine Prog.meets_trusting_call (pre_of_removes_nothing fun _ => rfl) ?_
  refine fun _ _ => Prog.meets_trusting_done (hv.next fun e => ?_)
  cases e <;> simp [Tabled, afterCall, puts, removes, Holdings.handle]

theorem uninstallFrameCallback_keepsTables (hv : InTables v w) {id : FrameCallbackId}
    (hmay : mayCall v (.uninstallFrameCallback id)) : KeepsTables τ v w (.uninstallFrameCallback id) := by
  obtain ⟨cb, hcallback⟩ := Holdings.callbackId_eq_some.mp hmay.1
  refine Prog.meets_trusting_call (pre_of_removes fun k _ hremoves => ?_) fun _ _ => ?_
  · cases k <;> simp [removes] at hremoves
    subst hremoves
    exact hv.keys (.frameCallback _ cb) hcallback
  · refine Prog.meets_trusting_done (hv.next fun e => ?_)
    cases e <;> simp [Tabled, afterCall, hcallback, puts, removes, TableEntry.key, Holdings.handle]
    exact fun hid _ => hid.symm

theorem uninstallDiscoveryCallback_keepsTables (hv : InTables v w) {id : DiscoveryCallbackId}
    (hmay : mayCall v (.uninstallDiscoveryCallback id)) :
    KeepsTables τ v w (.uninstallDiscoveryCallback id) := by
  obtain ⟨cb, hcallback⟩ := Holdings.discoveryCallbackId_eq_some.mp hmay.1
  refine Prog.meets_trusting_call (pre_of_removes fun k _ hremoves => ?_) fun _ _ => ?_
  · cases k <;> simp [removes] at hremoves
    subst hremoves
    exact hv.keys (.discoveryCallback _ cb) hcallback
  · refine Prog.meets_trusting_done (hv.next fun e => ?_)
    cases e <;> simp [Tabled, afterCall, hcallback, puts, removes, TableEntry.key, Holdings.handle]
    exact fun hid _ => hid.symm

/-- **A method of an owner keeps the contract.** -/
theorem steps_keepsTables (hv : InTables v w) (c : PortCall) (hmay : clientProtocol.pre v c) :
    KeepsTables τ v w c := by
  -- a method that is not about the tables
  have hquiet : (∀ step, Makes c step → puts step = none ∧ ∀ k, removes step k = false) →
      (∀ r, InTables (afterCall v c r) w) → KeepsTables τ v w c := fun hc hafter =>
    Prog.meets_trusting_quiet ((steps_makes c).mono fun step hstep =>
      ⟨pre_of_removes_nothing (hc step hstep).2,
        fun _ => next_offTables (hc step hstep).1 (hc step hstep).2⟩) hafter
  have hown : ¬ OfSystem c → mayCall v c := hmay.resolve_right
  cases c with
  | openCamera id => exact openCamera_keepsTables hv id (hown (by simp [OfSystem]))
  | closeCamera h => exact closeCamera_keepsTables hv (hown (by simp [OfSystem]))
  | announceFrame h size => exact announceFrame_keepsTables hv size
  | frameRevokeAll h => exact frameRevokeAll_keepsTables hv (hown (by simp [OfSystem]))
  | registerDiscovery cb => exact registerDiscovery_keepsTables hv (hown (by simp [OfSystem]))
  | unregisterDiscovery r => exact unregisterDiscovery_keepsTables hv (hown (by simp [OfSystem]))
  | installFrameCallback cb => exact installFrameCallback_keepsTables hv cb (hown (by simp [OfSystem]))
  | installDiscoveryCallback cb =>
      exact installDiscoveryCallback_keepsTables hv cb (hown (by simp [OfSystem]))
  | uninstallFrameCallback id =>
      exact uninstallFrameCallback_keepsTables hv (hown (by simp [OfSystem]))
  | uninstallDiscoveryCallback id =>
      exact uninstallDiscoveryCallback_keepsTables hv (hown (by simp [OfSystem]))
  | runFeatureCommand h name =>
      refine hquiet (fun step hstep => by cases hstep <;> exact ⟨rfl, fun _ => rfl⟩) fun r => ?_
      by_cases hname : name = featureAcquisitionStop
      · simp only [afterCall, if_pos hname]
        exact hv.congr rfl rfl rfl rfl rfl
      · simp only [afterCall, if_neg hname]
        cases r <;> exact hv.congr rfl rfl rfl rfl rfl
  | captureStart h =>
      refine hquiet (fun step hstep => by cases hstep <;> exact ⟨rfl, fun _ => rfl⟩) fun r => ?_
      cases r <;> exact hv.congr rfl rfl rfl rfl rfl
  | queueFrame h slot cb =>
      refine hquiet (fun step hstep => by cases hstep <;> exact ⟨rfl, fun _ => rfl⟩) fun r => ?_
      cases r <;> exact hv.congr rfl rfl rfl rfl rfl
  | _ =>
      refine hquiet (fun step hstep => by cases hstep <;> exact ⟨rfl, fun _ => rfl⟩) fun r => ?_
      exact hv.congr rfl rfl rfl rfl rfl

end Methods

/-- An operation of a domain object keeps the contract, and so the object has its entries. -/
theorem clientSteps_keepsTables {a : Action} (ha : a.Allocatable) (obj : Option Object)
    {o : Option (Shelf Ident TableEntry)} (ho : Trusted (fun obj w => InTables (ownedBy obj) w) obj o) :
    (clientSteps a obj).Meets (trustingTables τ)
      (Trusted fun r w => InTables (ownedBy r.2) w) o := by
  have himpl : ∀ v o c, Trusted InTables v o → clientProtocol.pre v c →
      (steps c).Meets (trustingTables τ) (fun r o' => Trusted InTables (afterCall v c r) o') o :=
    fun v o c hv hpre => Prog.meets_trusting fun w hw => steps_keepsTables (hv w hw) c hpre
  refine (perform_through himpl a obj ho).mono ?_
  rintro r o' ⟨v, hv, rfl | ⟨hnot, -⟩⟩
  · exact hv
  · exact absurd ha hnot

/-! ## Every interleaving -/

theorem not_hasEntry_new {started : Bool} {e : TableEntry} :
    ¬ ({ FfiState.new with started := started } : FfiState).HasEntry e := by
  cases e with
  | frameCallback id cb => simp [FfiState.HasEntry, FfiState.new]
  | discoveryCallback id cb => simp [FfiState.HasEntry, FfiState.new]
  | _ => exact Finmap.notMem_empty

/-- The camera of a thread is in the table. -/
theorem findsCamera {shelf : ι → Shelf Ident TableEntry} {filed : ι → List Ident} {x : FfiState × τ}
    (h : Stocked (tables τ) shelf filed x) (api : VmbApi τ) (t : ι) (c : AtomicStep) :
    FindsCamera (shelf t) c (stepMachine api x c).1 := by
  rcases c with c | c
  · trivial
  · cases c
    case getCamera handle =>
      intro hmem hnone
      have hkept : (TableEntry.camera handle).Kept := fun slot hslot => by cases hslot
      have hthere : handle ∈ x.1.cameras := (h.agree t _ hkept (h.guards t _ hmem hkept)).mpr hmem
      exact absurd hthere (Finmap.lookup_eq_none.mp hnone)
    all_goals trivial

section Runs

variable [DecidableEq ι] (api : VmbApi τ) (started : Bool) (t : τ)

theorem shelved_clients (moves : List (Move ι Action))
    (halloc : ∀ u a, .invoke u a ∈ moves → a.Allocatable)
    (hlimit : ((register τ).draws (clients api started t moves : Clients τ ι).log).length < 2 ^ 64 - 1) :
    Shelved (tables τ) FindsCamera (fun obj w => InTables (ownedBy obj) w) 1
      (clients api started t moves : Clients τ ι) := by
  have hempty : InTables (ownedBy none) {} := by
    have hnot : ∀ e, ¬ Tabled (ownedBy none) e := fun e => by
      cases e <;> simp [Tabled, ownedBy, Holdings.handle]
    exact ⟨fun e => ⟨fun he => absurd he (Set.notMem_empty e), fun he => absurd he (hnot e)⟩,
      fun e he => absurd he (hnot e)⟩
  have hinit : Shelved (Z := tables τ) FindsCamera (fun obj w => InTables (ownedBy obj) w)
      ((register τ).counter ({ FfiState.new with started := started }, t))
      (Pool.init ({ FfiState.new with started := started }, t) none : Clients τ ι) :=
    Shelved.init hempty (fun _ => not_has_new)
      (Set.eq_empty_iff_forall_notMem.mpr fun _ => not_hasEntry_new)
  refine hinit.run (register_obeys api) (tables_obeys api) (fun a obj v => clientSteps_files a obj v)
    (fun shelf filed x h u c => findsCamera h api u c) moves
    (fun u a hmem obj o ho => clientSteps_keepsTables (halloc u a hmem) obj ho) ?_
  have hcounter := counter_clients (ι := ι) api started t moves
  show (clients api started t moves : Clients τ ι).shared.1.counter ≤ 2 ^ 64
  omega

/-- **The tables are shared, and nothing leaks.** However the operations of any threads on their own
cameras and subscriptions interleave, and whatever the SDK answers: between two operations of a thread,
the tables hold under the identifiers of its object what the object holds, with the closure it has been
given; and when no operation is running, they hold nothing but what the objects hold. Only the slots of a
session may be gone. -/
theorem tables_shared (moves : List (Move ι Action))
    (halloc : ∀ u a, .invoke u a ∈ moves → a.Allocatable)
    (hlimit : ((register τ).draws (clients api started t moves : Clients τ ι).log).length < 2 ^ 64 - 1) :
    (∀ u, ((clients api started t moves : Clients τ ι).threads u).running = none → ∀ e, e.Kept →
      (∃ e', Tabled (ownedBy ((clients api started t moves : Clients τ ι).threads u).object) e' ∧
        e'.key = e.key) →
      ((clients api started t moves : Clients τ ι).shared.1.HasEntry e ↔
        Tabled (ownedBy ((clients api started t moves : Clients τ ι).threads u).object) e)) ∧
    ((∀ u, ((clients api started t moves : Clients τ ι).threads u).running = none) →
      ∀ e, (clients api started t moves : Clients τ ι).shared.1.HasEntry e →
        ∃ u, Tabled (ownedBy ((clients api started t moves : Clients τ ι).threads u).object) e) := by
  have hshelved := shelved_clients api started t moves halloc hlimit
  constructor
  · rintro u hrest e hkept ⟨e', he', hkey⟩
    obtain ⟨w, hw, hagree⟩ := hshelved.agree hrest
    rw [← hw.entries e]
    exact hagree e hkept (show e.key ∈ w.keys from hkey ▸ hw.keys e' he')
  · intro hrest e he
    obtain ⟨u, w, hw, hmem⟩ := hshelved.nothing hrest (e := e) he
    exact ⟨u, (hw.entries e).mp hmem⟩

end Runs

theorem captureWhileClosing_allocatable (u : Bool) (a : Action)
    (ha : .invoke u a ∈ captureWhileClosing) : a.Allocatable := by
  simp [captureWhileClosing] at ha
  rcases ha with ⟨-, rfl⟩ | ⟨-, rfl⟩ | ⟨-, rfl⟩ | ⟨-, rfl⟩ <;> decide

/-- One thread has a session and the other one nothing: the tables hold the camera and the callback of
the session, and its slot. -/
theorem tables_shared_captureWhileClosing :
    (∀ e, Tabled (ownedBy
        ((clients mockApi false 5 captureWhileClosing : Clients Nat Bool).threads false).object) e →
      e.Kept → (clients mockApi false 5 captureWhileClosing : Clients Nat Bool).shared.1.HasEntry e) ∧
    ∀ e, (clients mockApi false 5 captureWhileClosing : Clients Nat Bool).shared.1.HasEntry e →
      ∃ u, Tabled (ownedBy
        ((clients mockApi false 5 captureWhileClosing : Clients Nat Bool).threads u).object) e := by
  have hshared := tables_shared mockApi false 5 captureWhileClosing captureWhileClosing_allocatable
    (by decide +kernel)
  have hrest : ∀ u,
      ((clients mockApi false 5 captureWhileClosing : Clients Nat Bool).threads u).running = none :=
    fun u => Option.isNone_iff_eq_none.mp (by revert u; decide +kernel)
  refine ⟨fun e he hkept => ?_, hshared.2 hrest⟩
  exact (hshared.1 false (hrest false) e hkept ⟨e, he, rfl⟩).mpr he

end Vmb.Ffi

/-
# Vmb.Fake.SharedTables -- the tables of the fake under interleaving

The fake keeps its tables by the same identifiers as the adapter, and no table is cleared for everybody:
an announced frame belongs to the camera it was announced to, and so does the capture of a camera with
the frames queued in it. So under every interleaving of threads with a domain object each, every table
holds for each thread exactly what it would hold if the thread were alone, queued frames in order, and
nothing else when all operations are done (`tables_exact`), whatever is rigged to fail.
-/
import Vmb.Core.Agreement
import Vmb.Fake.Identifiers
import Vmb.Fake.Tables
import Vmb.Lib.Shelves

namespace Vmb.Fake

open Vmb.Lib Vmb.Core

variable {ι : Type}

/-! ## Entries -/

/-- An entry of a table, with its value. -/
inductive TableEntry where
  | camera (h : CameraHandle) (id : String)
  | slot (slot : FrameSlotId) (h : CameraHandle)
  | capture (h : CameraHandle) (queued : List (FrameSlotId × FrameCallbackId))
  | frameCallback (id : FrameCallbackId) (cb : FrameCallback)
  | discoveryCallback (id : DiscoveryCallbackId) (cb : DiscoveryCallback)
  | registration (r : DiscoveryRegistrationHandle) (cb : DiscoveryCallbackId)

/-- The identifier an entry is taken by. -/
def TableEntry.guard : TableEntry → Ident
  | .camera h _ => .camera h
  | .slot _ h => .camera h
  | .capture h _ => .camera h
  | .frameCallback id _ => .frameCallback id
  | .discoveryCallback id _ => .discoveryCallback id
  | .registration r _ => .registration r

def FakeState.HasEntry (s : FakeState) : TableEntry → Prop
  | .camera h id => s.cameras.lookup h = some id
  | .slot slot h => s.announcedFrames.lookup slot = some h
  | .capture h queued => s.activeCaptures.lookup h = some queued
  | .frameCallback id cb => s.frameCallbacks.lookup id = some cb
  | .discoveryCallback id cb => s.discoveryCallbacks.lookup id = some cb
  | .registration r cb => s.discoveryRegs.lookup r = some cb

/-- The capture of the camera among the entries, empty if there is none. -/
def Captured (es : Set TableEntry) (h : CameraHandle) (queued : List (FrameSlotId × FrameCallbackId)) :
    Prop := .capture h queued ∈ es ∨ queued = [] ∧ ∀ queued', .capture h queued' ∉ es

/-- The entries an access removes. -/
def takes : Access → TableEntry → Prop
  | .removeCamera h, .camera h' _ => h' = h
  | .retainAnnounced h, .slot _ h' => h' = h
  -- the capture is replaced by the longer one
  | .pushCapture h _, .capture h' _ => h' = h
  | .removeCapture h, .capture h' _ => h' = h
  | .removeFrameCallback id, .frameCallback id' _ => id' = id
  | .removeDiscoveryCallback id, .discoveryCallback id' _ => id' = id
  | .removeReg r, .registration r' _ => r' = r
  | _, _ => False

/-- The entry an access makes, where the entries are `es`. -/
def puts : Access → Set TableEntry → TableEntry → Prop
  | .insertCamera h id, _, e => e = .camera h id
  | .insertAnnounced slot h, _, e => e = .slot slot h
  | .pushCapture h slots, es, e =>
      ∃ queued, Captured es h queued ∧ e = .capture h (queued ++ slots)
  | .insertFrameCallback id cb, _, e => e = .frameCallback id cb
  | .insertDiscoveryCallback id cb, _, e => e = .discoveryCallback id cb
  | .insertReg r cb, _, e => e = .registration r cb
  | _, _, _ => False

/-- The identifier whose entries an access changes. -/
def about : Access → Option Ident
  | .insertCamera h _ => some (.camera h)
  | .removeCamera h => some (.camera h)
  | .insertAnnounced _ h => some (.camera h)
  | .retainAnnounced h => some (.camera h)
  | .pushCapture h _ => some (.camera h)
  | .removeCapture h => some (.camera h)
  | .insertFrameCallback id _ => some (.frameCallback id)
  | .removeFrameCallback id => some (.frameCallback id)
  | .insertDiscoveryCallback id _ => some (.discoveryCallback id)
  | .removeDiscoveryCallback id => some (.discoveryCallback id)
  | .insertReg r _ => some (.registration r)
  | .removeReg r => some (.registration r)
  | _ => none

/-- The tables of the fake: every entry belongs to one thread. -/
def tables : Shelves register TableEntry where
  entries s := {e | s.HasEntry e}
  guard := TableEntry.guard
  about c := {k | about c = some k}
  act c es := {e | e ∈ es ∧ ¬ takes c e ∨ puts c es e}
  Own _ := True

theorem captured_iff {s : FakeState} {h : CameraHandle} {queued : List (FrameSlotId × FrameCallbackId)} :
    Captured {e | s.HasEntry e} h queued ↔ queued = (s.activeCaptures.lookup h).getD [] := by
  show s.activeCaptures.lookup h = some queued ∨
    queued = [] ∧ (∀ queued', s.activeCaptures.lookup h ≠ some queued') ↔ _
  rcases s.activeCaptures.lookup h with - | queued'
  · simp
  · simp [eq_comm]

/-- `entry(h).or_default()` extends the capture of the camera, and no other one. -/
theorem hasEntry_pushCapture (s : FakeState) (h : CameraHandle)
    (slots : List (FrameSlotId × FrameCallbackId)) (e : TableEntry) :
    (s.pushCapture h slots).HasEntry e ↔ s.HasEntry e ∧ ¬ takes (.pushCapture h slots) e ∨
      puts (.pushCapture h slots) {e | s.HasEntry e} e := by
  simp only [puts, captured_iff, exists_eq_left]
  cases e with
  | capture h' queued =>
      simp only [FakeState.pushCapture, FakeState.HasEntry, takes, lookup_insert_eq_some]
      rcases eq_or_ne h' h with rfl | hne
      · simp [eq_comm]
      · simp [hne]
  | _ => simp [FakeState.pushCapture, FakeState.HasEntry, takes]

/-- **An access changes the entries as it says.** -/
theorem hasEntry_access (s : FakeState) (c : Access) (e : TableEntry)
    (habsent : ∀ k, register.kind c = .file k → ¬ s.Has k) :
    (s.access c).2.HasEntry e ↔ s.HasEntry e ∧ ¬ takes c e ∨ puts c {e | s.HasEntry e} e := by
  cases c with
  | insertCamera h id =>
      have hk : h ∉ s.cameras := habsent _ rfl
      cases e <;> simp [FakeState.access, FakeState.HasEntry, takes, puts, lookup_insert_absent hk, eq_comm]
  | insertAnnounced slot h =>
      have hk : slot ∉ s.announcedFrames := habsent _ rfl
      cases e <;> simp [FakeState.access, FakeState.HasEntry, takes, puts, lookup_insert_absent hk, eq_comm]
  | insertFrameCallback id cb =>
      have hk : id ∉ s.frameCallbacks := habsent _ rfl
      cases e <;> simp [FakeState.access, FakeState.HasEntry, takes, puts, lookup_insert_absent hk, eq_comm]
  | insertDiscoveryCallback id cb =>
      have hk : id ∉ s.discoveryCallbacks := habsent _ rfl
      cases e <;> simp [FakeState.access, FakeState.HasEntry, takes, puts, lookup_insert_absent hk, eq_comm]
  | insertReg r cb =>
      have hk : r ∉ s.discoveryRegs := habsent _ rfl
      cases e <;> simp [FakeState.access, FakeState.HasEntry, takes, puts, lookup_insert_absent hk, eq_comm]
  | removeCamera h =>
      cases e <;> simp [FakeState.access, FakeState.HasEntry, takes, puts, lookup_erase_eq_some, and_comm]
  | removeCapture h =>
      cases e <;> simp [FakeState.access, FakeState.HasEntry, takes, puts, lookup_erase_eq_some, and_comm]
  | removeFrameCallback id =>
      cases e <;> simp [FakeState.access, FakeState.HasEntry, takes, puts, lookup_erase_eq_some, and_comm]
  | removeDiscoveryCallback id =>
      cases e <;> simp [FakeState.access, FakeState.HasEntry, takes, puts, lookup_erase_eq_some, and_comm]
  | removeReg r =>
      cases e <;> simp [FakeState.access, FakeState.HasEntry, takes, puts, lookup_erase_eq_some, and_comm]
  | retainAnnounced h =>
      cases e <;> simp [FakeState.access, FakeState.HasEntry, takes, puts, lookup_retain_eq_some]
  | pushCapture h slots => exact hasEntry_pushCapture s h slots e
  | maybeFail method =>
      simp only [FakeState.access, FakeState.maybeFail, takes, puts, not_false_eq_true, and_true, or_false]
      split <;> cases e <;> exact Iff.rfl
  | _ =>
      cases e <;>
        simp [FakeState.access, FakeState.HasEntry, takes, puts, FakeState.record, FakeState.nextU64]

theorem about_of_takes {c : Access} {e : TableEntry} (h : takes c e) : about c = some e.guard := by
  unfold takes at h
  split at h <;> first | exact h ▸ rfl | exact absurd h id

theorem about_of_puts {c : Access} {es : Set TableEntry} {e : TableEntry} (h : puts c es e) :
    about c = some e.guard := by
  unfold puts at h
  split at h <;> first | exact h ▸ rfl | exact absurd h id | skip
  obtain ⟨queued, -, rfl⟩ := h
  rfl

/-- What an access puts depends on the capture of its camera only. -/
theorem puts_congr {c : Access} {es es' : Set TableEntry}
    (h : tables.AgreeOn {k | about c = some k} es es') (e : TableEntry) : puts c es e ↔ puts c es' e := by
  cases c
  case pushCapture handle slots =>
    have hcapture : ∀ queued, .capture handle queued ∈ es ↔ .capture handle queued ∈ es' := fun queued =>
      h (.capture handle queued) trivial rfl
    simp only [puts, Captured, hcapture]
  all_goals exact Iff.rfl

theorem tables_obeys : tables.Obeys FakeState.access where
  changed s c habsent := Set.ext fun e => hasEntry_access s c e habsent
  frame c es e _ habout := by
    constructor
    · rintro (⟨h, -⟩ | h)
      · exact h
      · exact absurd (about_of_puts h) habout
    · exact fun h => Or.inl ⟨h, fun htaken => habout (about_of_takes htaken)⟩
  reads c es es' hagree e hown habout :=
    or_congr (and_congr_left fun _ => hagree e hown habout) (puts_congr hagree e)
  shared _ _ _ _ hown := absurd trivial hown

/-! ## What an owner has in the tables -/

def Tabled (v : Holdings) : TableEntry → Prop
  | .camera h id => v.camera = some (h, id)
  | .slot slot h => v.handle = some h ∧ slot ∈ v.slots
  | .capture h queued => v.handle = some h ∧ v.window = some queued
  | .frameCallback id cb => v.callback = some (id, cb)
  | .discoveryCallback id cb => v.discoveryCallback = some (id, cb)
  | .registration r cb => v.discoveryCallbackId = some cb ∧ v.registration = some r

/-- The thread of the owner has its entries on the shelf, and has filed their identifiers. -/
structure InTables (v : Holdings) (w : Shelf Ident TableEntry) : Prop where
  entries : ∀ e, e ∈ w.entries ↔ Tabled v e
  keys : ∀ e, Tabled v e → e.guard ∈ w.keys

/-- A thread of the fake counts on nothing. -/
noncomputable abbrev keepingTables : Contract Accesses (Option (Shelf Ident TableEntry)) :=
  tables.keeping.trusting fun _ _ _ => True

variable {v v' : Holdings} {w : Shelf Ident TableEntry} {α : Type}
  {Q : α → Shelf Ident TableEntry → Prop}

/-- An access that is about none of the tables. -/
theorem meets_offTables {c : Access} {k : c.Resp → Prog Accesses α} (habout : about c = none)
    (hfile : register.kind c = .other ∨ register.kind c = .draw)
    (hk : ∀ r, (k r).Meets keepingTables (Trusted Q) (some w)) :
    (Prog.call (S := Accesses) c k).Meets keepingTables (Trusted Q) (some w) := by
  have hnone : ∀ key, about c ≠ some key := fun key h => by
    rw [habout] at h
    cases h
  refine Prog.meets_trusting_call (fun key hkey => absurd hkey (hnone key)) fun r _ => ?_
  have hfiled : Shelves.filedBy register c = [] := by
    unfold Shelves.filedBy
    rcases hfile with h | h <;> rw [h]
  have hact : tables.act c w.entries = w.entries := by
    ext e
    show e ∈ w.entries ∧ ¬ takes c e ∨ puts c w.entries e ↔ e ∈ w.entries
    have htakes : ¬ takes c e := fun h => hnone _ (about_of_takes h)
    have hputs : ¬ puts c w.entries e := fun h => hnone _ (about_of_puts h)
    simp [htakes, hputs]
  have hnext : tables.keeping.next w c r = w := by
    show (⟨w.keys ++ Shelves.filedBy register c, tables.act c w.entries⟩ : Shelf _ _) = w
    rw [hfiled, hact, List.append_nil]
  rw [hnext]
  exact hk r

/-- An access to the entries of an identifier of the thread. -/
theorem meets_onTables {x : Holdings} (h : InTables v w) {c : Access} {k : c.Resp → Prog Accesses α}
    {key : Ident} (habout : about c = some key) (hkey : key ∈ w.keys ∨ register.kind c = .file key)
    (hv : ∀ e, Tabled x e ↔ Tabled v e ∧ ¬ takes c e ∨ puts c {e | Tabled v e} e)
    (hk : ∀ r w', InTables x w' → w.keys ⊆ w'.keys →
      (k r).Meets keepingTables (Trusted Q) (some w')) :
    (Prog.call (S := Accesses) c k).Meets keepingTables (Trusted Q) (some w) := by
  have hpre : tables.keeping.pre w c := fun key' hkey' => by
    obtain rfl : key = key' := Option.some.inj (habout.symm.trans hkey')
    exact hkey
  have hentries : w.entries = {e | Tabled v e} := Set.ext h.entries
  refine Prog.meets_trusting_call hpre fun r _ => hk r _ ⟨fun e => ?_, fun e he => ?_⟩ ?_
  · rw [hv e, ← hentries, ← h.entries e]
    rfl
  · rcases (hv e).mp he with ⟨hold, -⟩ | hput
    · exact List.mem_append_left _ (h.keys e hold)
    · exact List.mem_append.mpr ((hpre _ (about_of_puts hput)).imp_right Shelves.mem_filedBy.mpr)
  · exact List.subset_append_left _ _

theorem meets_fallible_tables {call : FakeCall} {method : Method} {k : Prog Accesses (Result α)}
    {Q : Result α → Shelf Ident TableEntry → Prop} (herror : ∀ e, Q (.error e) w)
    (hk : k.Meets keepingTables (Trusted Q) (some w)) :
    (Atomic.fallible call method k).Meets keepingTables (Trusted Q) (some w) := by
  refine meets_offTables rfl (Or.inl rfl) fun _ => meets_offTables rfl (Or.inl rfl) fun r => ?_
  cases r with
  | error e => exact Prog.meets_trusting_done (herror e)
  | ok _ => exact hk

/-- The method keeps the contract, and leaves the entries the owner has after it. -/
def KeepsTables (v : Holdings) (w : Shelf Ident TableEntry) (c : PortCall) : Prop :=
  (accesses c).Meets keepingTables (Trusted fun r w' => InTables (afterCall v c r) w') (some w)

theorem InTables.congr (h : InTables v w) (hsame : ∀ e, Tabled v' e ↔ Tabled v e) : InTables v' w :=
  ⟨fun e => (h.entries e).trans (hsame e).symm, fun e he => h.keys e ((hsame e).mp he)⟩

/-- The handle of the open camera has been filed. -/
theorem InTables.handle (hv : InTables v w) {h : CameraHandle} (hh : v.handle = some h) :
    Ident.camera h ∈ w.keys := by
  obtain ⟨id, hcamera⟩ := Holdings.handle_eq_some.mp hh
  exact hv.keys (.camera h id) hcamera

section Methods

theorem openCamera_keepsTables (hv : InTables v w) (id : String) (hmay : mayCall v (.openCamera id)) :
    KeepsTables v w (.openCamera id) := by
  have hempty : v = {} := hmay
  subst hempty
  show (Atomic.openCamera id).Meets _ _ _
  unfold Atomic.openCamera Atomic.nextId
  refine meets_offTables rfl (Or.inl rfl) fun _ => meets_offTables rfl (Or.inl rfl) fun r => ?_
  cases r with
  | error e => exact Prog.meets_trusting_done hv
  | ok _ =>
      refine meets_offTables rfl (Or.inr rfl) fun n => ?_
      dsimp only [Prog.bind]
      by_cases hn : (n : UInt64) ≠ 0
      · rw [dif_pos hn]
        refine meets_onTables hv rfl (Or.inr rfl) (fun e => ?_) fun _ w' hw' _ =>
          Prog.meets_trusting_done hw'
        cases e <;> simp [Tabled, takes, puts, afterCall, Holdings.discoveryCallbackId, eq_comm]
      · rw [dif_neg hn]
        exact Prog.meets_trusting_done hv

/-- The capture goes after the camera, by the handle that was its key. -/
theorem closeCamera_keepsTables (hv : InTables v w) {h : CameraHandle} (hmay : mayCall v (.closeCamera h)) :
    KeepsTables v w (.closeCamera h) := by
  obtain ⟨hhandle, -, hslots, hwindow, -⟩ := hmay
  obtain ⟨id, hcamera⟩ := Holdings.handle_eq_some.mp hhandle
  have hfiled := hv.handle hhandle
  refine meets_offTables rfl (Or.inl rfl) fun _ => ?_
  refine meets_onTables (x := afterCall v (.closeCamera h) ()) hv rfl (Or.inl hfiled) (fun e => ?_) ?_
  · cases e <;> simp [Tabled, takes, puts, afterCall, Holdings.discoveryCallbackId, hslots, hwindow,
      hcamera, eq_comm]
    exact fun hsame _ => hsame
  · intro _ w' hw' hsub
    refine meets_onTables hw' rfl (Or.inl (hsub hfiled)) (fun e => ?_) fun _ w'' hw'' _ =>
      Prog.meets_trusting_done hw''
    cases e <;> simp [Tabled, takes, puts, hwindow, afterCall]

theorem announceFrame_keepsTables (hv : InTables v w) {h : CameraHandle} (size : UInt32)
    (hmay : mayCall v (.announceFrame h size)) : KeepsTables v w (.announceFrame h size) := by
  have hhandle : v.handle = some h := hmay.1
  obtain ⟨id, hcamera⟩ := Holdings.handle_eq_some.mp hhandle
  refine meets_fallible_tables (fun e => hv.congr fun e => by cases e <;> exact Iff.rfl) ?_
  refine meets_offTables rfl (Or.inr rfl) fun slot => ?_
  refine meets_onTables hv rfl (Or.inl (hv.handle hhandle)) (fun e => ?_) fun _ w' hw' _ =>
    Prog.meets_trusting_done hw'
  cases e <;> simp [Tabled, takes, puts, afterCall, Holdings.handle, Holdings.discoveryCallbackId, hcamera,
    and_or_left, and_comm, eq_comm]

theorem captured_tabled {h : CameraHandle} (hhandle : v.handle = some h)
    {queued : List (FrameSlotId × FrameCallbackId)} :
    Captured {e | Tabled v e} h queued ↔ queued = v.window.getD [] := by
  show v.handle = some h ∧ v.window = some queued ∨
    queued = [] ∧ (∀ queued', ¬ (v.handle = some h ∧ v.window = some queued')) ↔ _
  rcases v.window with - | queued'
  · simp
  · simp [hhandle, eq_comm]

/-- A capture starts empty. -/
theorem captureStart_keepsTables (hv : InTables v w) {h : CameraHandle}
    (hmay : mayCall v (.captureStart h)) : KeepsTables v w (.captureStart h) := by
  obtain ⟨hhandle, -, hwindow, -⟩ := hmay
  obtain ⟨id, hcamera⟩ := Holdings.handle_eq_some.mp hhandle
  refine meets_fallible_tables (fun e => hv.congr fun e => by cases e <;> exact Iff.rfl) ?_
  refine meets_onTables hv rfl (Or.inl (hv.handle hhandle)) (fun e => ?_) fun _ w' hw' _ =>
    Prog.meets_trusting_done hw'
  simp only [puts, captured_tabled hhandle, exists_eq_left, hwindow]
  cases e <;> simp [Tabled, takes, afterCall, Holdings.handle, Holdings.discoveryCallbackId, hwindow,
    hcamera, eq_comm]

/-- A queued frame goes to the end of the capture. -/
theorem queueFrame_keepsTables (hv : InTables v w) {h : CameraHandle} {slot : FrameSlotId}
    {cb : FrameCallbackId} (hmay : mayCall v (.queueFrame h slot cb)) :
    KeepsTables v w (.queueFrame h slot cb) := by
  obtain ⟨hhandle, -, hwindow, -⟩ := hmay
  obtain ⟨id, hcamera⟩ := Holdings.handle_eq_some.mp hhandle
  obtain ⟨queued, hqueued⟩ := Option.isSome_iff_exists.mp hwindow
  refine meets_fallible_tables (fun e => hv.congr fun e => by cases e <;> exact Iff.rfl) ?_
  refine meets_onTables hv rfl (Or.inl (hv.handle hhandle)) (fun e => ?_) fun _ w' hw' _ =>
    Prog.meets_trusting_done hw'
  simp only [puts, captured_tabled hhandle, exists_eq_left, hqueued]
  cases e <;> simp [Tabled, takes, afterCall, Holdings.handle, Holdings.discoveryCallbackId, hqueued,
    hcamera, eq_comm]
  exact fun hsame _ hne => absurd hsame hne

theorem captureEnd_keepsTables (hv : InTables v w) {h : CameraHandle} (hmay : mayCall v (.captureEnd h)) :
    KeepsTables v w (.captureEnd h) := by
  have hhandle : v.handle = some h := hmay.1
  obtain ⟨id, hcamera⟩ := Holdings.handle_eq_some.mp hhandle
  refine meets_offTables rfl (Or.inl rfl) fun _ => ?_
  refine meets_onTables hv rfl (Or.inl (hv.handle hhandle)) (fun e => ?_) fun _ w' hw' _ =>
    Prog.meets_trusting_done hw'
  cases e <;> simp [Tabled, takes, puts, Holdings.handle, Holdings.discoveryCallbackId, hcamera, eq_comm]
  exact fun hsame _ => hsame

/-- The announced frames of the camera are those of its owner. -/
theorem frameRevokeAll_keepsTables (hv : InTables v w) {h : CameraHandle}
    (hmay : mayCall v (.frameRevokeAll h)) : KeepsTables v w (.frameRevokeAll h) := by
  have hhandle : v.handle = some h := hmay.1
  obtain ⟨id, hcamera⟩ := Holdings.handle_eq_some.mp hhandle
  refine meets_offTables rfl (Or.inl rfl) fun _ => ?_
  refine meets_onTables hv rfl (Or.inl (hv.handle hhandle)) (fun e => ?_) fun _ w' hw' _ =>
    Prog.meets_trusting_done hw'
  cases e <;> simp [Tabled, takes, puts, Holdings.handle, Holdings.discoveryCallbackId, hcamera, eq_comm]
  exact fun hsame _ => hsame

theorem registerDiscovery_keepsTables (hv : InTables v w) {cb : DiscoveryCallbackId}
    (hmay : mayCall v (.registerDiscovery cb)) : KeepsTables v w (.registerDiscovery cb) := by
  obtain ⟨hcallback, hnone⟩ := hmay
  refine meets_fallible_tables (fun e => hv) ?_
  refine meets_offTables rfl (Or.inr rfl) fun r => ?_
  refine meets_onTables hv rfl (Or.inr rfl) (fun e => ?_) fun _ w' hw' _ =>
    Prog.meets_trusting_done hw'
  obtain ⟨f, hf⟩ := Holdings.discoveryCallbackId_eq_some.mp hcallback
  cases e <;> simp [Tabled, takes, puts, afterCall, Holdings.handle, Holdings.discoveryCallbackId, hf,
    hnone, and_comm, eq_comm]

theorem unregisterDiscovery_keepsTables (hv : InTables v w) {r : DiscoveryRegistrationHandle}
    (hmay : mayCall v (.unregisterDiscovery r)) (hsub : Subscribed v) :
    KeepsTables v w (.unregisterDiscovery r) := by
  have hregistration : v.registration = some r := hmay
  refine meets_offTables rfl (Or.inl rfl) fun _ => ?_
  refine meets_onTables hv rfl (Or.inl ?_) (fun e => ?_) fun _ w' hw' _ =>
    Prog.meets_trusting_done hw'
  · obtain ⟨cb, hcb⟩ := Option.isSome_iff_exists.mp (hsub (by rw [hregistration]; rfl))
    exact hv.keys (.registration r cb) ⟨hcb, hregistration⟩
  · cases e <;> simp [Tabled, takes, puts, Holdings.handle, Holdings.discoveryCallbackId, hregistration,
      eq_comm]

theorem installFrameCallback_keepsTables (hv : InTables v w) (cb : FrameCallback)
    (hmay : mayCall v (.installFrameCallback cb)) : KeepsTables v w (.installFrameCallback cb) := by
  have hnone : v.callback = none := hmay.2
  refine meets_offTables rfl (Or.inr rfl) fun id => meets_offTables rfl (Or.inl rfl) fun _ => ?_
  refine meets_onTables hv rfl (Or.inr rfl) (fun e => ?_) fun _ w' hw' _ =>
    Prog.meets_trusting_done hw'
  cases e <;> simp [Tabled, takes, puts, Holdings.handle, Holdings.discoveryCallbackId, hnone,
    afterCall, eq_comm]

theorem uninstallFrameCallback_keepsTables (hv : InTables v w) {id : FrameCallbackId}
    (hmay : mayCall v (.uninstallFrameCallback id)) : KeepsTables v w (.uninstallFrameCallback id) := by
  obtain ⟨cb, hcallback⟩ := Holdings.callbackId_eq_some.mp hmay.1
  refine meets_offTables rfl (Or.inl rfl) fun _ => ?_
  refine meets_onTables hv rfl (Or.inl (hv.keys (.frameCallback id cb) hcallback)) (fun e => ?_)
    fun _ w' hw' _ => Prog.meets_trusting_done hw'
  cases e <;> simp [Tabled, takes, puts, Holdings.handle, Holdings.discoveryCallbackId, hcallback, eq_comm]
  exact fun hsame _ => hsame

theorem installDiscoveryCallback_keepsTables (hv : InTables v w) (cb : DiscoveryCallback)
    (hmay : mayCall v (.installDiscoveryCallback cb)) :
    KeepsTables v w (.installDiscoveryCallback cb) := by
  have hempty : v = {} := hmay
  subst hempty
  refine meets_offTables rfl (Or.inr rfl) fun id => meets_offTables rfl (Or.inl rfl) fun _ => ?_
  refine meets_onTables hv rfl (Or.inr rfl) (fun e => ?_) fun _ w' hw' _ =>
    Prog.meets_trusting_done hw'
  cases e <;> simp [Tabled, takes, puts, afterCall, Holdings.handle, Holdings.discoveryCallbackId, eq_comm]

theorem uninstallDiscoveryCallback_keepsTables (hv : InTables v w) {id : DiscoveryCallbackId}
    (hmay : mayCall v (.uninstallDiscoveryCallback id)) :
    KeepsTables v w (.uninstallDiscoveryCallback id) := by
  obtain ⟨hid, hnone⟩ := hmay
  obtain ⟨cb, hcallback⟩ := Holdings.discoveryCallbackId_eq_some.mp hid
  refine meets_offTables rfl (Or.inl rfl) fun _ => ?_
  refine meets_onTables hv rfl (Or.inl (hv.keys (.discoveryCallback id cb) hcallback)) (fun e => ?_)
    fun _ w' hw' _ => Prog.meets_trusting_done hw'
  cases e <;>
    simp [Tabled, takes, puts, Holdings.handle, Holdings.discoveryCallbackId, hcallback, hnone, eq_comm]
  exact fun hsame _ => hsame

/-- **A method of an owner keeps the contract.** -/
theorem accesses_keepTables (hv : InTables v w) (hsub : Subscribed v) (c : PortCall)
    (hmay : clientProtocol.pre v c) :
    KeepsTables v w c := by
  have hown : ¬ OfSystem c → mayCall v c := hmay.resolve_right
  cases c with
  | startup =>
      refine meets_fallible_tables (fun e => hv) (meets_offTables rfl (Or.inl rfl) fun exchanged => ?_)
      dsimp only [Prog.bind]
      split
      · exact Prog.meets_trusting_done hv
      · exact Prog.meets_trusting_done hv
  | shutdown =>
      exact meets_offTables rfl (Or.inl rfl) fun _ => meets_offTables rfl (Or.inl rfl) fun _ =>
        Prog.meets_trusting_done hv
  | listCameras =>
      exact meets_fallible_tables (fun e => hv) (meets_offTables rfl (Or.inl rfl) fun _ =>
        Prog.meets_trusting_done hv)
  | openCamera id => exact openCamera_keepsTables hv id (hown (by simp [OfSystem]))
  | closeCamera h => exact closeCamera_keepsTables hv (hown (by simp [OfSystem]))
  | loadSettings h path => exact meets_fallible_tables (fun e => hv) (Prog.meets_trusting_done hv)
  | runFeatureCommand h name =>
      have hafter : ∀ r, InTables (afterCall v (.runFeatureCommand h name) r) w := fun r => by
        refine hv.congr fun e => ?_
        by_cases hname : name = featureAcquisitionStop
        · simp only [afterCall, if_pos hname]
          cases e <;> exact Iff.rfl
        · simp only [afterCall, if_neg hname]
          cases r <;> cases e <;> exact Iff.rfl
      exact meets_fallible_tables (fun e => hafter _) (Prog.meets_trusting_done (hafter _))
  | payloadSize h =>
      exact meets_fallible_tables (fun e => hv) (meets_offTables rfl (Or.inl rfl) fun _ =>
        Prog.meets_trusting_done hv)
  | announceFrame h size => exact announceFrame_keepsTables hv size (hown (by simp [OfSystem]))
  | captureStart h => exact captureStart_keepsTables hv (hown (by simp [OfSystem]))
  | queueFrame h slot cb => exact queueFrame_keepsTables hv (hown (by simp [OfSystem]))
  | captureEnd h => exact captureEnd_keepsTables hv (hown (by simp [OfSystem]))
  | captureQueueFlush h => exact meets_offTables rfl (Or.inl rfl) fun _ => Prog.meets_trusting_done hv
  | frameRevokeAll h => exact frameRevokeAll_keepsTables hv (hown (by simp [OfSystem]))
  | registerDiscovery cb => exact registerDiscovery_keepsTables hv (hown (by simp [OfSystem]))
  | unregisterDiscovery r => exact unregisterDiscovery_keepsTables hv (hown (by simp [OfSystem])) hsub
  | installFrameCallback cb => exact installFrameCallback_keepsTables hv cb (hown (by simp [OfSystem]))
  | installDiscoveryCallback cb =>
      exact installDiscoveryCallback_keepsTables hv cb (hown (by simp [OfSystem]))
  | uninstallFrameCallback id =>
      exact uninstallFrameCallback_keepsTables hv (hown (by simp [OfSystem]))
  | uninstallDiscoveryCallback id =>
      exact uninstallDiscoveryCallback_keepsTables hv (hown (by simp [OfSystem]))

end Methods

/-! ## The operations of domain objects -/

/-- An operation of a domain object, as accesses of the fake. -/
def clientAccesses (a : Action) (obj : Option Object) : Prog Accesses (Outcome × Option Object) :=
  (a.perform obj).through accesses

/-- A thread between two calls. -/
def OnShelf (v : Holdings) (w : Shelf Ident TableEntry) : Prop := Subscribed v ∧ InTables v w

theorem onShelf_empty : OnShelf {} {} := by
  have hnot : ∀ e, ¬ Tabled {} e := fun e => by
    cases e <;> simp [Tabled, Holdings.handle, Holdings.discoveryCallbackId]
  refine ⟨fun h => absurd h Bool.false_ne_true, fun e => ⟨fun he => ?_, fun he => ?_⟩, fun e he => ?_⟩
  · exact absurd he (Set.notMem_empty e)
  · exact absurd he (hnot e)
  · exact absurd he (hnot e)

/-- **An operation of a domain object keeps the contract**, and the object has its entries. -/
theorem clientAccesses_keepTables {a : Action} (ha : a.Allocatable) (obj : Option Object)
    {o : Option (Shelf Ident TableEntry)} (ho : Trusted (fun obj w => OnShelf (ownedBy obj) w) obj o) :
    (clientAccesses a obj).Meets keepingTables (Trusted fun r w => OnShelf (ownedBy r.2) w) o := by
  have himpl : ∀ v o c, Trusted OnShelf v o → clientProtocol.pre v c →
      (accesses c).Meets keepingTables (fun r o' => Trusted OnShelf (afterCall v c r) o') o := by
    refine fun v o c hv hpre => Prog.meets_trusting fun w hw => ?_
    obtain ⟨hsub, htables⟩ := hv w hw
    refine (accesses_keepTables htables hsub c hpre).mono fun r o' ho' w' hw' => ⟨?_, ho' w' hw'⟩
    rcases hpre with hmay | rfl | rfl | rfl
    · exact subscribed_afterCall hsub hmay
    · exact hsub
    · exact hsub
    · exact hsub
  refine (perform_through himpl a obj ho).mono ?_
  rintro r o' ⟨v, hv, rfl | ⟨hnot, -⟩⟩
  · exact hv
  · exact absurd ha hnot

theorem clientAccesses_files (a : Action) (obj : Option Object) (v : Register.View Ident) :
    (clientAccesses a obj).Meets register.discipline (fun _ _ => True) v := by
  have himpl : ∀ (u : Unit) (v : Register.View Ident) c, True → (Contract.free Port).pre u c →
      (accesses c).Meets register.discipline (fun _ _ => True) v :=
    fun _ v c _ _ => (accesses_files c v).mono fun _ _ _ => trivial
  exact ((a.perform obj).meets_free.through trivial himpl).mono fun _ _ _ => trivial

/-! ## Every interleaving -/

section Runs

variable [DecidableEq ι]

/-- Threads with an object of the domain layer each. -/
abbrev Clients (ι : Type) : Type := Pool Accesses FakeState ι (Option Object) Outcome

/-- Each thread performs operations on its object, one access of the fake at a time. -/
def clients (config : Config) (moves : List (Move ι Action)) : Clients ι :=
  (Pool.init (.configured config) none).run FakeState.access clientAccesses moves

theorem not_hasEntry_configured {config : Config} {e : TableEntry} :
    ¬ (FakeState.configured config).HasEntry e := by
  cases e <;> simp [FakeState.HasEntry, FakeState.configured, FakeState.new]

theorem shelved_clients (config : Config) (moves : List (Move ι Action))
    (halloc : ∀ u a, .invoke u a ∈ moves → a.Allocatable)
    (hlimit : (register.draws (clients config moves : Clients ι).log).length < 2 ^ 64 - 1) :
    Shelved tables (fun _ _ _ => True) (fun obj w => OnShelf (ownedBy obj) w) 1
      (clients config moves : Clients ι) := by
  have hinit : Shelved (Z := tables) (fun _ _ _ => True) (fun obj w => OnShelf (ownedBy obj) w)
      (register.counter (FakeState.configured config))
      (Pool.init (FakeState.configured config) none : Clients ι) :=
    Shelved.init onShelf_empty (fun _ => not_has_configured)
      (Set.eq_empty_iff_forall_notMem.mpr fun _ => not_hasEntry_configured)
  refine hinit.run register_obeys tables_obeys (fun a obj v => clientAccesses_files a obj v)
    (fun _ _ _ _ _ _ => trivial) moves
    (fun u a hmem obj o ho => clientAccesses_keepTables (halloc u a hmem) obj ho) ?_
  have hcounter : (clients config moves : Clients ι).shared.counter =
      1 + (register.draws (clients config moves : Clients ι).log).length :=
    register_obeys.counter_run _ moves rfl
  show (clients config moves : Clients ι).shared.counter ≤ 2 ^ 64
  omega

/-- **The tables of the fake are shared, and nothing leaks.** However the operations of any threads on
their own cameras and subscriptions interleave, and whatever is rigged to fail: between two operations of
a thread, the tables hold under the identifiers of its object what the object holds, the frames queued in
its capture included; and when no operation is running, they hold nothing else. No `start_capture` may ask
for more buffers than a vector can hold, and the counter must not wrap: fewer than `2^64 - 1` numbers are
drawn. -/
theorem tables_exact (config : Config) (moves : List (Move ι Action))
    (halloc : ∀ u a, .invoke u a ∈ moves → a.Allocatable)
    (hlimit : (register.draws (clients config moves : Clients ι).log).length < 2 ^ 64 - 1) :
    (∀ u, ((clients config moves : Clients ι).threads u).running = none → ∀ e,
      (∃ e', Tabled (ownedBy ((clients config moves : Clients ι).threads u).object) e' ∧
        e'.guard = e.guard) →
      ((clients config moves : Clients ι).shared.HasEntry e ↔
        Tabled (ownedBy ((clients config moves : Clients ι).threads u).object) e)) ∧
    ((∀ u, ((clients config moves : Clients ι).threads u).running = none) →
      ∀ e, (clients config moves : Clients ι).shared.HasEntry e ↔
        ∃ u, Tabled (ownedBy ((clients config moves : Clients ι).threads u).object) e) := by
  have hshelved := shelved_clients config moves halloc hlimit
  have hshelf : ∀ u, ((clients config moves : Clients ι).threads u).running = none → ∀ e,
      (∃ e', Tabled (ownedBy ((clients config moves : Clients ι).threads u).object) e' ∧
        e'.guard = e.guard) →
      ((clients config moves : Clients ι).shared.HasEntry e ↔
        Tabled (ownedBy ((clients config moves : Clients ι).threads u).object) e) := by
    rintro u hrest e ⟨e', he', hguard⟩
    obtain ⟨w, ⟨-, hw⟩, hagree⟩ := hshelved.agree hrest
    rw [← hw.entries e]
    exact hagree e trivial (show e.guard ∈ w.keys from hguard ▸ hw.keys e' he')
  refine ⟨hshelf, fun hrest e => ⟨fun he => ?_, fun ⟨u, hu⟩ => (hshelf u (hrest u) e ⟨e, hu, rfl⟩).mpr hu⟩⟩
  obtain ⟨u, w, ⟨-, hw⟩, hmem⟩ := hshelved.nothing hrest (e := e) he
  exact ⟨u, (hw.entries e).mp hmem⟩

end Runs

/-- Two threads open a camera each and start a capture; one of them stops again. -/
def captureTwice : List (Move Bool Action) :=
  [.invoke false (.openCamera "DEV_1"), .invoke true (.openCamera "DEV_2")] ++
    (List.replicate 5 [.step false, .step true]).flatten ++
    [.invoke false (.startCapture 2 ⟨7⟩), .invoke true (.startCapture 1 ⟨8⟩)] ++
    (List.replicate 30 [.step false, .step true]).flatten ++
    [.invoke true .stopCapture] ++ List.replicate 12 (.step true)

theorem captureTwice_allocatable (u : Bool) (a : Action) (ha : .invoke u a ∈ captureTwice) :
    a.Allocatable := by
  simp [captureTwice] at ha
  rcases ha with ⟨-, rfl⟩ | ⟨-, rfl⟩ | ⟨-, rfl⟩ | ⟨-, rfl⟩ | ⟨-, rfl⟩ <;> decide

/-- The capture of the one thread has the two frames it has queued; of the other thread only the camera is
left. -/
theorem tables_exact_captureTwice :
    (clients FakeState.new.config captureTwice : Clients Bool).shared.activeCaptures.lookup
        ⟨⟨1, by decide⟩⟩ = some [(⟨5⟩, ⟨3⟩), (⟨7⟩, ⟨3⟩)] ∧
      ∀ e, (clients FakeState.new.config captureTwice : Clients Bool).shared.HasEntry e ↔
        ∃ u, Tabled (ownedBy
          ((clients FakeState.new.config captureTwice : Clients Bool).threads u).object) e := by
  have hshared := tables_exact FakeState.new.config captureTwice captureTwice_allocatable
    (by decide +kernel)
  have hrest : ∀ u,
      ((clients FakeState.new.config captureTwice : Clients Bool).threads u).running = none :=
    fun u => Option.isNone_iff_eq_none.mp (by revert u; decide +kernel)
  refine ⟨(hshared.2 hrest (.capture _ _)).mpr ⟨false, ?_⟩, hshared.2 hrest⟩
  exact ⟨by decide +kernel, by decide +kernel⟩

end Vmb.Fake

/-
# Vmb.Ffi.Identifiers -- the identifiers of the adapter

The five tables of the adapter and its counter, read as a register: `fetch_add` draws a number, and an
insertion files an identifier. A port method files an identifier only under the number it has drawn
last, and issues what it files (`steps_files`).
-/
import Vmb.Core.Trace
import Vmb.Ffi.Atomic
import Vmb.Lib.Fresh

namespace Vmb.Ffi

open Vmb.Lib Vmb.Core Vmb.Sdk

/-- The identifier is a key of its table. -/
def FfiState.Has (s : FfiState) : Ident → Prop
  | .camera h => h ∈ s.cameras
  | .slot slot => slot ∈ s.frames
  | .frameCallback id => id ∈ s.frameCallbacks
  | .discoveryCallback id => id ∈ s.discoveryCallbacks
  | .registration r => r ∈ s.discoveryRegs

/-- The tables and the counter of the adapter: `fetch_add` draws a number, and an insertion files the
identifier it is given. -/
def register (τ : Type) : Register Steps (FfiState × τ) Ident where
  kind
    | .access .fetchAdd => .draw
    | .access (.insertCamera h _) => .file (.camera h)
    | .access (.insertFrame slot _) => .file (.slot slot)
    | .access (.insertFrameCallback id _) => .file (.frameCallback id)
    | .access (.insertDiscoveryCallback id _) => .file (.discoveryCallback id)
    | .access (.insertReg r _) => .file (.registration r)
    | _ => .other
  drawn
    | .access .fetchAdd, id => UInt64.toNat id
    | _, _ => 0
  num k := k.asU64.toNat
  counter x := x.1.counter
  Present x k := x.1.Has k

/-- An access puts no identifier into a table but the one it inserts. -/
theorem has_access {s : FfiState} {c : Access} {k : Ident} (hk : (s.access c).2.Has k) :
    s.Has k ∨ (register Unit).kind (.access c) = .file k := by
  cases c with
  | insertCamera h raw =>
      cases k with
      | camera h' =>
          exact (mem_insert_cases hk).imp_right (congrArg (Filing.file ∘ Ident.camera))
      | _ => exact Or.inl hk
  | insertFrame slot ctx =>
      cases k with
      | slot slot' =>
          exact (mem_insert_cases hk).imp_right (congrArg (Filing.file ∘ Ident.slot))
      | _ => exact Or.inl hk
  | insertFrameCallback id cb =>
      cases k with
      | frameCallback id' =>
          exact (mem_insert_cases hk).imp_right (congrArg (Filing.file ∘ Ident.frameCallback))
      | _ => exact Or.inl hk
  | insertDiscoveryCallback id cb =>
      cases k with
      | discoveryCallback id' =>
          exact (mem_insert_cases hk).imp_right (congrArg (Filing.file ∘ Ident.discoveryCallback))
      | _ => exact Or.inl hk
  | insertReg r reg =>
      cases k with
      | registration r' =>
          exact (mem_insert_cases hk).imp_right (congrArg (Filing.file ∘ Ident.registration))
      | _ => exact Or.inl hk
  | patchFrame slot callback =>
      -- the slot is in the table already
      cases hctx : s.frames.lookup slot with
      | none =>
          simp only [FfiState.access, hctx] at hk
          exact Or.inl hk
      | some ctx =>
          simp only [FfiState.access, hctx] at hk
          cases k with
          | slot slot' =>
              rcases Finmap.mem_insert.mp hk with rfl | hk
              · exact Or.inl (Finmap.mem_of_lookup_eq_some hctx)
              · exact Or.inl hk
          | _ => exact Or.inl hk
  | removeCamera h =>
      cases k with
      | camera h' => exact Or.inl (Finmap.mem_erase.mp hk).2
      | _ => exact Or.inl hk
  | clearFrames =>
      cases k with
      | slot slot' => exact absurd hk Finmap.notMem_empty
      | _ => exact Or.inl hk
  | removeFrameCallback id =>
      cases k with
      | frameCallback id' => exact Or.inl (Finmap.mem_erase.mp hk).2
      | _ => exact Or.inl hk
  | removeDiscoveryCallback id =>
      cases k with
      | discoveryCallback id' => exact Or.inl (Finmap.mem_erase.mp hk).2
      | _ => exact Or.inl hk
  | removeReg r =>
      cases k with
      | registration r' => exact Or.inl (Finmap.mem_erase.mp hk).2
      | _ => exact Or.inl hk
  | _ => cases k <;> exact Or.inl hk

section Register

variable {τ : Type}

theorem register_obeys (api : VmbApi τ) : (register τ).Obeys (stepMachine api) (2 ^ 64) where
  draw x c hkind := by
    cases c with
    | sdk c => cases hkind
    | access c =>
        cases c with
        | fetchAdd => rfl
        | _ => cases hkind
  drawn x c hkind hlt := by
    cases c with
    | sdk c => cases hkind
    | access c =>
        cases c with
        | fetchAdd => exact UInt64.toNat_ofNat_of_lt hlt
        | _ => cases hkind
  keep x c hkind := by
    cases c with
    | sdk c => rfl
    | access c =>
        cases c with
        | fetchAdd => exact absurd rfl hkind
        | patchFrame slot callback =>
            show ((x.1.access (.patchFrame slot callback)).2).counter = x.1.counter
            unfold FfiState.access
            dsimp only
            split <;> rfl
        | _ => rfl
  present x c k hk := by
    cases c with
    | sdk c => exact Or.inl hk
    | access c => exact (has_access hk).imp_right fun h => h

end Register

/-! ## What a method files -/

section Files

variable {α τ : Type} {v : Register.View Ident}

variable {Q : α → Register.View Ident → Prop}

theorem meets_sdk {c : SdkCall} {f : c.Resp → Prog Steps α}
    (h : ∀ r, (f r).Meets (register τ).discipline Q v) :
    (sdk c >>= f).Meets (register τ).discipline Q v := meets_other rfl h

theorem meets_access {c : Access} {f : c.Resp → Prog Steps α}
    (hkind : (register τ).kind (.access c) = .other)
    (h : ∀ r, (f r).Meets (register τ).discipline Q v) :
    (access c >>= f).Meets (register τ).discipline Q v := meets_other hkind h

theorem meets_fetchAdd {f : UInt64 → Prog Steps α}
    (h : ∀ id, (f id).Meets (register τ).discipline Q { v with held := some id.toNat }) :
    (access .fetchAdd >>= f).Meets (register τ).discipline Q v := meets_draw rfl h

theorem meets_insert {c : Access} {f : c.Resp → Prog Steps α} {k : Ident}
    (hkind : (register τ).kind (.access c) = .file k) (hheld : v.held = some k.asU64.toNat)
    (h : ∀ r, (f r).Meets (register τ).discipline Q ⟨v.filed ++ [k], none⟩) :
    (access c >>= f).Meets (register τ).discipline Q v := meets_file hkind hheld h

/-- `resolve_camera` files nothing, and neither does a method on a camera before its SDK call. -/
theorem meets_resolveCamera {h : CameraHandle} {f : Result VmbHandle → Prog Steps α}
    (hf : ∀ r, (f r).Meets (register τ).discipline Q v) :
    (Atomic.resolveCamera h >>= f).Meets (register τ).discipline Q v := by
  unfold Atomic.resolveCamera
  rw [Prog.bind_assoc]
  refine meets_access rfl fun raw => ?_
  cases raw with
  | none => exact hf _
  | some raw => exact hf _

theorem meets_withCamera {h : CameraHandle} {k : VmbHandle → Prog Steps (Result α)}
    {Q : Result α → Register.View Ident → Prop} (herror : ∀ e, Q (.error e) v)
    (hk : ∀ raw, (k raw).Meets (register τ).discipline Q v) :
    (Atomic.withCamera h k).Meets (register τ).discipline Q v := by
  refine meets_resolveCamera fun r => ?_
  cases r with
  | error e => exact herror e
  | ok raw => exact hk raw

theorem meets_ifCamera {h : CameraHandle} {k : VmbHandle → Prog Steps Unit}
    {Q : Unit → Register.View Ident → Prop} (hunknown : Q () v)
    (hk : ∀ raw, (k raw).Meets (register τ).discipline Q v) :
    (Atomic.ifCamera h k).Meets (register τ).discipline Q v := by
  refine meets_resolveCamera fun r => ?_
  cases r with
  | error e => exact hunknown
  | ok raw => exact hk raw

/-- The lifecycle steps draw and file nothing. -/
theorem meets_ofLifecycle {p : Prog Lifecycle α} (h : ∀ a, Q a v) :
    (ofLifecycle p).Meets (register τ).discipline Q v := by
  induction p with
  | done a => exact h a
  | call c k ih =>
      cases c with
      | compareExchange => exact meets_other rfl fun r => ih r
      | store => exact meets_other rfl fun r => ih r
      | swap => exact meets_other rfl fun r => ih r
      | vmbStartup => exact meets_other rfl fun r => ih r
      | vmbShutdown => exact meets_other rfl fun r => ih r

variable (τ v) in
/-- From `v`, a method that returns `r` has filed what `r` issues. -/
def Files (c : PortCall) : Prop :=
  (steps c).Meets (register τ).discipline
    (fun r v' => v'.filed = v.filed ++ (issued ⟨c, r⟩).toList) v

theorem listCameras_files : Files τ v .listCameras := by
  refine meets_sdk fun query => ?_
  cases check query.rc with
  | error e => exact v.quiet
  | ok _ =>
      dsimp only
      split
      · exact v.quiet
      · refine meets_sdk fun answer => ?_
        cases check answer.rc with
        | error e => exact v.quiet
        | ok _ => exact v.quiet

theorem openCamera_files (id : String) : Files τ v (.openCamera id) := by
  unfold Files steps Atomic.openCamera
  dsimp only
  cases CString.new (bytes id) with
  | none => exact v.quiet
  | some cId =>
      refine meets_sdk fun ⟨rc, handle⟩ => ?_
      dsimp only
      cases check rc with
      | error e => exact v.quiet
      | ok _ =>
          unfold Atomic.nextId
          refine meets_fetchAdd fun n => ?_
          by_cases hn : n ≠ 0
          · rw [dif_pos hn]
            exact meets_insert rfl rfl fun _ => rfl
          · rw [dif_neg hn]
            exact v.quiet

theorem closeCamera_files (h : CameraHandle) : Files τ v (.closeCamera h) := by
  refine meets_access rfl fun raw => ?_
  cases raw with
  | none => exact v.quiet
  | some raw => exact meets_sdk fun rc => v.quiet

theorem loadSettings_files (h : CameraHandle) (path : Path) : Files τ v (.loadSettings h path) := by
  refine meets_withCamera (fun e => v.quiet) fun raw => ?_
  cases CString.new (lossy path) with
  | none => exact v.quiet
  | some cPath => exact meets_sdk fun rc => v.quiet

theorem runFeatureCommand_files (h : CameraHandle) (name : String) :
    Files τ v (.runFeatureCommand h name) := by
  refine meets_withCamera (fun e => v.quiet) fun raw => ?_
  cases CString.new (bytes name) with
  | none => exact v.quiet
  | some cmd => exact meets_sdk fun rc => v.quiet

theorem payloadSize_files (h : CameraHandle) : Files τ v (.payloadSize h) := by
  refine meets_withCamera (fun e => v.quiet) fun raw => meets_sdk fun ⟨rc, payload⟩ => ?_
  dsimp only
  cases check rc with
  | error e => exact v.quiet
  | ok _ => exact v.quiet

theorem announceFrame_files (h : CameraHandle) (size : UInt32) :
    Files τ v (.announceFrame h size) := by
  refine meets_withCamera (fun e => v.quiet) fun raw => ?_
  refine meets_access rfl fun ctx => meets_sdk fun rc => ?_
  cases check rc with
  | error e => exact v.quiet
  | ok _ => exact meets_fetchAdd fun slot => meets_insert rfl rfl fun _ => rfl

theorem queueFrame_files (h : CameraHandle) (slot : FrameSlotId) (cb : FrameCallbackId) :
    Files τ v (.queueFrame h slot cb) := by
  refine meets_withCamera (fun e => v.quiet) fun raw => meets_access rfl fun callback => ?_
  cases callback with
  | none => exact v.quiet
  | some callback =>
      refine meets_access rfl fun framePtr => ?_
      cases framePtr with
      | none => exact v.quiet
      | some framePtr => exact meets_sdk fun rc => v.quiet

theorem registerDiscovery_files (cb : DiscoveryCallbackId) :
    Files τ v (.registerDiscovery cb) := by
  refine meets_access rfl fun callback => ?_
  cases callback with
  | none => exact v.quiet
  | some callback =>
      dsimp only
      cases CString.new (bytes FfiState.featureEventCameraDiscovery) with
      | none => exact v.quiet
      | some feature =>
          refine meets_access rfl fun ctxPtr => meets_sdk fun rc => ?_
          cases check rc with
          | error e => exact meets_access rfl fun _ => v.quiet
          | ok _ => exact meets_fetchAdd fun handle => meets_insert rfl rfl fun _ => rfl

theorem unregisterDiscovery_files (r : DiscoveryRegistrationHandle) :
    Files τ v (.unregisterDiscovery r) := by
  refine meets_access rfl fun reg => ?_
  cases reg with
  | none => exact v.quiet
  | some reg => exact meets_sdk fun rc => meets_access rfl fun _ => v.quiet

/-- **Every method files exactly what it issues**, under the number it has drawn. -/
theorem steps_files (c : PortCall) (v : Register.View Ident) : Files τ v c := by
  cases c with
  | startup => exact meets_ofLifecycle fun _ => v.quiet
  | shutdown => exact meets_ofLifecycle fun _ => v.quiet
  | listCameras => exact listCameras_files
  | openCamera id => exact openCamera_files id
  | closeCamera h => exact closeCamera_files h
  | loadSettings h path => exact loadSettings_files h path
  | runFeatureCommand h name => exact runFeatureCommand_files h name
  | payloadSize h => exact payloadSize_files h
  | announceFrame h size => exact announceFrame_files h size
  | captureStart h => exact meets_withCamera (fun e => v.quiet) fun raw => meets_sdk fun rc => v.quiet
  | queueFrame h slot cb => exact queueFrame_files h slot cb
  | captureEnd h => exact meets_ifCamera v.quiet fun raw => meets_sdk fun rc => v.quiet
  | captureQueueFlush h => exact meets_ifCamera v.quiet fun raw => meets_sdk fun rc => v.quiet
  | frameRevokeAll h =>
      exact meets_ifCamera v.quiet fun raw => meets_sdk fun rc => meets_access rfl fun _ => v.quiet
  | registerDiscovery cb => exact registerDiscovery_files cb
  | unregisterDiscovery r => exact unregisterDiscovery_files r
  | installFrameCallback cb => exact meets_fetchAdd fun id => meets_insert rfl rfl fun _ => rfl
  | uninstallFrameCallback id => exact meets_access rfl fun _ => v.quiet
  | installDiscoveryCallback cb => exact meets_fetchAdd fun id => meets_insert rfl rfl fun _ => rfl
  | uninstallDiscoveryCallback id => exact meets_access rfl fun _ => v.quiet

end Files

/-! ## Threads -/

/-- Threads that call methods of one runtime over `api`, one atomic step at a time. Each keeps the
answers it has got and the identifiers it has been issued. `STARTED` belongs to the process, and may
be set before the runtime is made. -/
def interleaved {ι τ : Type} [DecidableEq ι] (api : VmbApi τ) (started : Bool) (t : τ)
    (moves : List (Move ι PortCall)) : Pool Steps (FfiState × τ) ι (List Ident) (Event Port) :=
  (Pool.init ({ FfiState.new with started := started }, t) []).run (stepMachine api) (issuing steps)
    moves

theorem not_has_new {started : Bool} {k : Ident} :
    ¬ ({ FfiState.new with started := started } : FfiState).Has k := by
  cases k <;> exact Finmap.notMem_empty

/-- **The identifiers of the adapter are fresh**, in every interleaving. -/
theorem keysFresh_interleaved {ι τ : Type} [DecidableEq ι] (api : VmbApi τ) (started : Bool) (t : τ)
    (moves : List (Move ι PortCall))
    (hlimit : ((register τ).draws (interleaved api started t moves).log).length < 2 ^ 64 - 1) :
    KeysFresh (register τ) (interleaved api started t) moves := by
  refine keysFresh (s := ({ FfiState.new with started := started }, t)) (register_obeys api)
    (fun c ids v hv => ?_) Nat.one_pos (fun k => not_has_new) moves ?_
  · refine Prog.meets_bind.mpr ((steps_files c v).mono fun r v' hr => ?_)
    show v'.filed = ids ++ (issued ⟨c, r⟩).toList
    rw [hr, hv]
  · show 1 + ((register τ).draws (interleaved api started t moves).log).length ≤ 2 ^ 64
    omega

end Vmb.Ffi

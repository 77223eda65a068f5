/-
# Vmb.Ffi.FrameOwners -- the frames of the threads, at the SDK and in the table

The context behind an announced frame is owned by the table `frames`. The SDK may complete the frame while
it holds it, and a trampoline that runs on it uses the context until it returns. `FramesKept` says that
every frame the SDK or a trampoline may use is a frame of a thread that has its camera, and that the frames
of threads are in the table. Every step of a thread keeps it (`FramesKept.sdk`, `FramesKept.revoke`,
`FramesKept.access`), and so does what the SDK does with a frame (`FramesKept.fill`, `FramesKept.callback`,
`FramesKept.resume`).

`frame_revoke_all` clears the table for all cameras, in a step of its own. `frameDuty` says that this step
is the next one after the revocation, and no thread may have a frame then.
-/
import Vmb.Ffi.Completion
import Vmb.Ffi.Owners

namespace Vmb.Ffi

open Vmb.Lib Vmb.Core Vmb.Sdk

variable {ι τ : Type}

/-! ## Trampolines and the SDK -/

/-- A trampoline that is running. -/
structure FrameCall where
  cameraHandle : VmbHandle
  framePtr : Nat
  rest : Prog Upcalls Unit

/-- What a trampoline is answered, and what the SDK is after it. The time and the end of the closure are
the answers it gets if it asks. -/
def answerUpcall (api : VmbApi τ) (t : τ) (hostTsNs : UInt64) (outcome : Exit Unit) :
    (c : Upcall) → c.Resp × τ
  | .systemTime => (hostTsNs, t)
  | .invoke _ _ => (outcome, t)
  | .vmbCaptureFrameQueue handle frame callback => api t (.vmbCaptureFrameQueue handle frame callback)
  | .dangling _ => ((), t)

/-- `held` are the frames the SDK may complete: it has been given them, and no revocation of its camera has
succeeded since. -/
structure QueueRules (api : VmbApi τ) (held : τ → VmbHandle → Nat → Prop) : Prop where
  queue : ∀ t raw ptr trampoline raw' ptr',
    held (api t (.vmbCaptureFrameQueue raw ptr trampoline)).2 raw' ptr' →
      held t raw' ptr' ∨ raw' = raw ∧ ptr' = ptr
  revoke : ∀ t raw ptr, (api t (.vmbFrameRevokeAll raw)).1 = (0 : Int32) →
    ¬ held (api t (.vmbFrameRevokeAll raw)).2 raw ptr
  other : ∀ t c raw ptr, (∀ raw' ptr' trampoline, c ≠ .vmbCaptureFrameQueue raw' ptr' trampoline) →
    held (api t c).2 raw ptr → held t raw ptr

/-- The camera a step announces a frame to. -/
def announcesTo : AtomicStep → Option VmbHandle
  | .sdk (.vmbFrameAnnounce raw _) => some raw
  | _ => none

/-- The camera a step revokes the frames of. -/
def revokesFrom : AtomicStep → Option VmbHandle
  | .sdk (.vmbFrameRevokeAll raw) => some raw
  | _ => none

/-! ## What a thread has to do next -/

/-- Whether a thread has revoked and not cleared yet, and the last context it has made. -/
structure FrameDuty where
  clears : Bool := false
  box : Option (Box TrampolineContext) := none

/-- A revocation is followed by the clearing of the table at once, and the table gets only contexts that
have been made by `TrampolineContext::new`. -/
def frameDuty : Contract Steps FrameDuty where
  pre d c := (d.clears = true ↔ c = .access .clearFrames) ∧
    ∀ slot ctx, c = .access (.insertFrame slot ctx) → d.box = some ctx
  next d c r :=
    match c, r with
    | .access (.newContext _), ctx => ⟨false, some ctx⟩
    | .sdk (.vmbFrameRevokeAll _), _ => ⟨true, d.box⟩
    | _, _ => ⟨false, d.box⟩

section Duty

variable {α : Type} {d : FrameDuty}

theorem frameDuty_pre {c : AtomicStep} (hd : d.clears = false) (hclear : c ≠ .access .clearFrames)
    (hinsert : ∀ slot ctx, c ≠ .access (.insertFrame slot ctx)) : frameDuty.pre d c := by
  constructor
  · rw [hd]
    simp [hclear]
  · intro slot ctx hc
    exact absurd hc (hinsert slot ctx)

/-- Only a revocation is to be followed by something. -/
theorem frameDuty_next {c : AtomicStep} (hc : revokesFrom c = none) (d : FrameDuty) (r : c.Resp) :
    (frameDuty.next d c r).clears = false := by
  rcases c with c | c
  · cases c
    case vmbFrameRevokeAll raw => cases hc
    all_goals rfl
  · cases c <;> rfl

/-- A step that is not about the table of frames. -/
def NoFrames (c : AtomicStep) : Prop :=
  revokesFrom c = none ∧ c ≠ .access .clearFrames ∧ ∀ slot ctx, c ≠ .access (.insertFrame slot ctx)

theorem meets_noFrames {p : Prog Steps α} (h : p.CallsOnly NoFrames) (hd : d.clears = false) :
    p.Meets frameDuty (fun _ d' => d'.clears = false) d := by
  induction p generalizing d with
  | done a => exact hd
  | call c k ih =>
      refine ⟨frameDuty_pre hd h.1.2.1 h.1.2.2, fun r => ih r (h.2 r) ?_⟩
      exact frameDuty_next h.1.1 d r

theorem announceFrame_duty (h : CameraHandle) (size : UInt32) (hd : d.clears = false) :
    (steps (.announceFrame h size)).Meets frameDuty (fun _ d' => d'.clears = false) d := by
  refine ⟨frameDuty_pre hd (by simp) (by simp), fun found => ?_⟩
  cases found with
  | none => exact rfl
  | some raw =>
      refine ⟨frameDuty_pre rfl (by simp) (by simp), fun ctx => ?_⟩
      refine ⟨frameDuty_pre rfl (by simp) (by simp), fun rc => ?_⟩
      dsimp only [Prog.bind]
      cases check rc with
      | error e => exact rfl
      | ok _ =>
          refine ⟨frameDuty_pre rfl (by simp) (by simp), fun slot => ⟨⟨?_, ?_⟩, fun _ => rfl⟩⟩
          · constructor <;> intro hc <;> cases hc
          · intro slot' ctx' hc
            cases hc
            rfl

theorem frameRevokeAll_duty (h : CameraHandle) (hd : d.clears = false) :
    (steps (.frameRevokeAll h)).Meets frameDuty (fun _ d' => d'.clears = false) d := by
  refine ⟨frameDuty_pre hd (by simp) (by simp), fun found => ?_⟩
  cases found with
  | none => exact rfl
  | some raw =>
      refine ⟨frameDuty_pre rfl (by simp) (by simp), fun rc => ⟨⟨?_, ?_⟩, fun _ => rfl⟩⟩
      · exact ⟨fun _ => rfl, fun _ => rfl⟩
      · intro slot ctx hc
        cases hc

/-- Every method does what is to be done next. -/
theorem steps_duty (c : PortCall) (hd : d.clears = false) :
    (steps c).Meets frameDuty (fun _ d' => d'.clears = false) d := by
  have hother : (∀ step, Makes c step → NoFrames step) →
      (steps c).Meets frameDuty (fun _ d' => d'.clears = false) d := fun hc =>
    meets_noFrames ((steps_makes c).mono hc) hd
  cases c with
  | announceFrame h size => exact announceFrame_duty h size hd
  | frameRevokeAll h => exact frameRevokeAll_duty h hd
  | _ => exact hother fun step hstep => by cases hstep <;> simp [NoFrames, revokesFrom]

theorem clientSteps_duty (a : Action) (obj : Option Object) (hd : d.clears = false) :
    (clientSteps a obj).Meets frameDuty (fun _ d' => d'.clears = false) d := by
  have himpl : ∀ (u : Unit) (d : FrameDuty) c, d.clears = false → (Contract.free Port).pre u c →
      (steps c).Meets frameDuty (fun _ d' => d'.clears = false) d :=
    fun _ d c hd _ => steps_duty c hd
  refine ((a.perform obj).meets_free.through hd himpl).mono ?_
  rintro r d' ⟨-, hd', -⟩
  exact hd'

end Duty

/-! ## Frames with an owner -/

/-- The box is where its self-pointer says. -/
def SelfPointing (box : Box TrampolineContext) : Prop :=
  box.addr ≠ 0 ∧ box.val.frame.context0 = box.addr

/-- A thread has the camera, and the frame among its frames. -/
def Has (view : ι → CameraView) (raw : VmbHandle) (ptr : Nat) : Prop :=
  ∃ u, (view u).Owns raw ∧ ptr ∈ (view u).frames.map Prod.snd

/-- The table has a context at the address. -/
def FfiState.Alive (s : FfiState) (ptr : Nat) : Prop :=
  ∃ slot box, s.frames.lookup slot = some box ∧ box.addr = ptr

/-- What a trampoline may call: it gives its own frame back, and follows no dangling pointer. -/
def Sane (raw : VmbHandle) (ptr : Nat) : Upcall → Prop
  | .vmbCaptureFrameQueue raw' ptr' _ => raw' = raw ∧ ptr' = ptr
  | .dangling _ => False
  | _ => True

/-- A frame stays in the table, at its address, when the SDK fills one. -/
theorem FfiState.lookup_fill_of_lookup {s : FfiState} {slot slot' : FrameSlotId} {w : Filled}
    {box : Box TrampolineContext} (h : s.frames.lookup slot' = some box) :
    ∃ box', (s.fill slot w).frames.lookup slot' = some box' ∧ box'.addr = box.addr := by
  rcases eq_or_ne slot' slot with rfl | hne
  · rw [FfiState.fill_eq h]
    exact ⟨_, Finmap.lookup_insert _, rfl⟩
  · refine ⟨box, ?_, rfl⟩
    unfold FfiState.fill
    cases s.frames.lookup slot with
    | none => exact h
    | some box' => exact (Finmap.lookup_insert_of_ne _ hne).trans h

/-- Filling a frame puts nothing into a table. -/
theorem FfiState.has_of_fill {s : FfiState} {slot : FrameSlotId} {w : Filled} {k : Ident}
    (h : (s.fill slot w).Has k) : s.Has k := by
  unfold FfiState.fill at h
  cases hslot : s.frames.lookup slot with
  | none =>
      rw [hslot] at h
      exact h
  | some box =>
      rw [hslot] at h
      cases k with
      | slot slot' =>
          rcases mem_insert_cases h with h | rfl
          · exact h
          · exact Finmap.mem_of_lookup_eq_some hslot
      | _ => exact h

/-- Wherever an address leads to, the context that is found there knows its address. -/
theorem contextAt_selfPointing {s : FfiState}
    (hs : ∀ slot box, s.frames.lookup slot = some box → SelfPointing box) {slot : FrameSlotId}
    {box : Box TrampolineContext} (hbox : s.frames.lookup slot = some box) :
    ∃ ctx, s.contextAt box.addr = some ctx ∧ SelfPointing ⟨box.addr, ctx⟩ := by
  have hex : ∃ ctx slot, s.frames.lookup slot = some ⟨box.addr, ctx⟩ := ⟨box.val, slot, hbox⟩
  obtain ⟨slot', hslot'⟩ := hex.choose_spec
  exact ⟨hex.choose, dif_pos hex, hs slot' _ hslot'⟩

/-- On a frame whose context is in the table, a trampoline does what it may and nothing else. -/
theorem trampoline_sane {s : FfiState}
    (hs : ∀ slot box, s.frames.lookup slot = some box → SelfPointing box) {slot : FrameSlotId}
    {box : Box TrampolineContext} (hbox : s.frames.lookup slot = some box) (raw : VmbHandle)
    (byte : Nat → UInt8) :
    (frameCallbackTrampoline ⟨s.contextAt, byte⟩ raw box.addr).CallsOnly (Sane raw box.addr) := by
  obtain ⟨ctx, hctx, hne, hself⟩ := contextAt_selfPointing hs hbox
  have hrequeue : (requeue raw box.addr).CallsOnly (Sane raw box.addr) :=
    ⟨⟨rfl, rfl⟩, fun _ => trivial⟩
  have hmem : Memory.context ⟨s.contextAt, byte⟩ box.addr = some ctx := hctx
  rw [frameCallbackTrampoline_eq hne hmem hself]
  split
  · refine ⟨trivial, fun hostTsNs => ?_⟩
    unfold deliver
    cases ctx.callback with
    | none => exact hrequeue
    | some f =>
        refine ⟨trivial, fun r => ?_⟩
        cases r with
        | panicked m => trivial
        | returned u => exact hrequeue
  · exact hrequeue

/-- The frames the SDK and the trampolines use are frames of threads, and the frames of threads are in
the table. When a thread is about to clear the table, no thread has a frame. -/
structure FramesKept (held : τ → VmbHandle → Nat → Prop) (calls : List FrameCall)
    (duty : ι → FrameDuty) (view : ι → CameraView) (s : FfiState) (t : τ) : Prop where
  held : ∀ raw ptr, held t raw ptr → Has view raw ptr
  running : ∀ call ∈ calls, Has view call.cameraHandle call.framePtr
  sane : ∀ call ∈ calls, call.rest.CallsOnly (Sane call.cameraHandle call.framePtr)
  tabled : ∀ u slot ptr, (slot, ptr) ∈ (view u).frames →
    ∃ box, s.frames.lookup slot = some box ∧ box.addr = ptr
  rooted : ∀ u ptr, (view u).Announced ptr → ∃ raw, (view u).Owns raw
  cleared : ∀ u, (duty u).clears = true → ∀ u' ptr, ¬ (view u').Announced ptr
  boxes : ∀ u box, (duty u).box = some box → SelfPointing box
  pointing : ∀ slot box, s.frames.lookup slot = some box → SelfPointing box

section Steps

variable {held : τ → VmbHandle → Nat → Prop} {calls : List FrameCall} {duty : ι → FrameDuty}
  {view : ι → CameraView} {s s' : FfiState} {x x' : τ} {u : ι} {w' : CameraView} {d' : FrameDuty}

theorem FramesKept.init {s : FfiState} {x : τ} (hnone : ∀ raw ptr, ¬ held x raw ptr)
    (hempty : s.frames = ∅) : FramesKept held [] (fun _ : ι => {}) (fun _ => {}) s x where
  held raw ptr h := absurd h (hnone raw ptr)
  running _ h := absurd h List.not_mem_nil
  sane _ h := absurd h List.not_mem_nil
  tabled _ _ _ h := absurd h List.not_mem_nil
  rooted _ ptr h := by
    rcases h with h | h
    · cases h
    · exact absurd h List.not_mem_nil
  cleared _ h := by cases h
  boxes _ _ h := by cases h
  pointing slot box h := by
    rw [hempty, Finmap.lookup_empty] at h
    cases h

/-- A step that announces no frame, gives none a slot and revokes none. -/
def Unframed (c : AtomicStep) : Prop :=
  announcesTo c = none ∧ revokesFrom c = none ∧ ∀ slot ctx, c ≠ .access (.insertFrame slot ctx)

/-- **It leaves the frames of a view, and their camera.** -/
theorem next_unframed {w : CameraView} {c : AtomicStep} {r : c.Resp} (hc : Unframed c)
    (hpre : atSdk.pre w c) (hr : Answers w c r) :
    (atSdk.next w c r).frames = w.frames ∧ (atSdk.next w c r).pending = w.pending ∧
      ∀ ptr raw, w.Announced ptr → w.Owns raw → (atSdk.next w c r).Owns raw := by
  have hempty : ∀ w : CameraView, w.frames = [] → w.pending = none → ∀ ptr, ¬ w.Announced ptr := by
    rintro w hframes hpending ptr (h | h)
    · rw [hpending] at h
      cases h
    · rw [hframes] at h
      exact absurd h List.not_mem_nil
  rcases c with c | c
  · cases c
    case vmbCameraOpen cId mode =>
      have hw : w = {} := hpre
      subst hw
      refine ⟨?_, ?_, fun ptr raw hptr => absurd hptr (hempty {} rfl rfl ptr)⟩
      · simp only [atSdk]
        split <;> rfl
      · simp only [atSdk]
        split <;> rfl
    case vmbCameraClose raw =>
      have hw : w = { hand := some raw } := hpre
      subst hw
      exact ⟨rfl, rfl, fun ptr raw' hptr => absurd hptr (hempty _ rfl rfl ptr)⟩
    case vmbFeatureCommandRun raw cmd =>
      simp only [atSdk]
      split
      · exact ⟨rfl, rfl, fun _ _ _ howns => howns⟩
      · split <;> exact ⟨rfl, rfl, fun _ _ _ howns => howns⟩
    case vmbCaptureStart raw =>
      simp only [atSdk]
      split <;> exact ⟨rfl, rfl, fun _ _ _ howns => howns⟩
    case vmbFrameAnnounce raw ptr => cases hc.1
    case vmbFrameRevokeAll raw => cases hc.2.1
    all_goals exact ⟨rfl, rfl, fun _ _ _ howns => howns⟩
  · cases c
    case insertCamera h raw =>
      refine ⟨rfl, rfl, fun ptr raw' _ howns => ?_⟩
      rcases howns with howns | howns
      · rw [CameraView.raw, hpre.2] at howns
        cases howns
      · exact Or.inl (hpre.1.symm.trans howns)
    case removeCamera h =>
      have hr : r = w.raw := hr
      refine ⟨rfl, rfl, fun ptr raw' _ howns => Or.inr ?_⟩
      rcases howns with howns | howns
      · exact hr.trans howns
      · rw [hpre.2] at howns
        cases howns
    case insertFrame slot ctx => exact absurd rfl (hc.2.2 slot ctx)
    all_goals exact ⟨rfl, rfl, fun _ _ _ howns => howns⟩

variable [DecidableEq ι]

/-- One thread has a new view and a new duty. -/
theorem FramesKept.update (h : FramesKept held calls duty view s x)
    (hmono : ∀ raw ptr, (view u).Owns raw → ptr ∈ (view u).frames.map Prod.snd →
      w'.Owns raw ∧ ptr ∈ w'.frames.map Prod.snd)
    (hrooted : ∀ ptr, w'.Announced ptr → ∃ raw, w'.Owns raw) (hclears : d'.clears = false)
    (hquiet : ∀ ptr, w'.Announced ptr →
      (∃ ptr', (view u).Announced ptr') ∨ ∀ u', u' ≠ u → (duty u').clears = false)
    (hbox : ∀ box, d'.box = some box → SelfPointing box)
    (htabled : ∀ u' slot ptr, (slot, ptr) ∈ (Function.update view u w' u').frames →
      ∃ box, s'.frames.lookup slot = some box ∧ box.addr = ptr)
    (hpointing : ∀ slot box, s'.frames.lookup slot = some box → SelfPointing box)
    (hheld : ∀ raw ptr, held x' raw ptr → held x raw ptr ∨ Has view raw ptr) :
    FramesKept held calls (Function.update duty u d') (Function.update view u w') s' x' := by
  have hhas : ∀ raw ptr, Has view raw ptr → Has (Function.update view u w') raw ptr := by
    rintro raw ptr ⟨u', howns, hptr⟩
    refine ⟨u', ?_⟩
    rcases eq_or_ne u' u with rfl | hne
    · rw [Function.update_self]
      exact hmono raw ptr howns hptr
    · rw [Function.update_of_ne hne]
      exact ⟨howns, hptr⟩
  refine ⟨fun raw ptr hp => ?_, fun call hcall => hhas _ _ (h.running call hcall), h.sane, htabled,
    fun u' ptr hptr => ?_, fun u' hu' u'' ptr hptr => ?_, fun u' box hb => ?_, hpointing⟩
  · rcases hheld raw ptr hp with hold | hown
    · exact hhas raw ptr (h.held raw ptr hold)
    · exact hhas raw ptr hown
  · rcases eq_or_ne u' u with rfl | hne
    · rw [Function.update_self] at hptr ⊢
      exact hrooted ptr hptr
    · rw [Function.update_of_ne hne] at hptr ⊢
      exact h.rooted u' ptr hptr
  · -- only another thread can be about to clear
    rcases eq_or_ne u' u with rfl | hne
    · rw [Function.update_self, hclears] at hu'
      cases hu'
    · rw [Function.update_of_ne hne] at hu'
      rcases eq_or_ne u'' u with rfl | hne'
      · rw [Function.update_self] at hptr
        rcases hquiet ptr hptr with ⟨ptr', hold⟩ | hnone
        · exact h.cleared u' hu' u'' ptr' hold
        · rw [hnone u' hne] at hu'
          cases hu'
      · rw [Function.update_of_ne hne'] at hptr
        exact h.cleared u' hu' u'' ptr hptr
  · rcases eq_or_ne u' u with rfl | hne
    · rw [Function.update_self] at hb
      exact hbox box hb
    · rw [Function.update_of_ne hne] at hb
      exact h.boxes u' box hb

/-- A step that is not about the frames of its thread. -/
theorem FramesKept.unframed (h : FramesKept held calls duty view s x) {c : AtomicStep} {r : c.Resp}
    (hc : Unframed c) (hpre : atSdk.pre (view u) c) (hr : Answers (view u) c r)
    (hbox : ∀ box, (frameDuty.next (duty u) c r).box = some box → SelfPointing box)
    (htabled : ∀ u' slot ptr, (slot, ptr) ∈ (view u').frames →
      ∃ box, s'.frames.lookup slot = some box ∧ box.addr = ptr)
    (hpointing : ∀ slot box, s'.frames.lookup slot = some box → SelfPointing box)
    (hheld : ∀ raw ptr, held x' raw ptr → held x raw ptr ∨ Has view raw ptr) :
    FramesKept held calls (Function.update duty u (frameDuty.next (duty u) c r))
      (Function.update view u (atSdk.next (view u) c r)) s' x' := by
  obtain ⟨hframes, hpending, howns⟩ := next_unframed hc hpre hr
  have hannounced : ∀ ptr, (atSdk.next (view u) c r).Announced ptr → (view u).Announced ptr := by
    intro ptr hptr
    unfold CameraView.Announced at hptr ⊢
    rw [hframes, hpending] at hptr
    exact hptr
  refine h.update (fun raw ptr hraw hptr => ?_) (fun ptr hptr => ?_) (frameDuty_next hc.2.1 _ r)
    (fun ptr hptr => Or.inl ⟨ptr, hannounced ptr hptr⟩) hbox (fun u' slot ptr hframe => ?_) hpointing
    hheld
  · rw [hframes]
    exact ⟨howns ptr raw (Or.inr hptr) hraw, hptr⟩
  · obtain ⟨raw, hraw⟩ := h.rooted u ptr (hannounced ptr hptr)
    exact ⟨raw, howns ptr raw (hannounced ptr hptr) hraw⟩
  · refine htabled u' slot ptr ?_
    rcases eq_or_ne u' u with rfl | hne
    · rw [Function.update_self, hframes] at hframe
      exact hframe
    · rw [Function.update_of_ne hne] at hframe
      exact hframe

variable {api : VmbApi τ}

/-- **An SDK call keeps the frames**, if it revokes none; and it announces one only while no other thread
is about to clear the table. -/
theorem FramesKept.sdk (h : FramesKept held calls duty view s x) (rules : QueueRules api held) {c : SdkCall}
    (hpre : atSdk.pre (view u) (.sdk c)) (hc : revokesFrom (.sdk c) = none)
    (hquiet : announcesTo (.sdk c) ≠ none → ∀ u', u' ≠ u → (duty u').clears = false) :
    FramesKept held calls (Function.update duty u (frameDuty.next (duty u) (.sdk c) (api x c).1))
      (Function.update view u (atSdk.next (view u) (.sdk c) (api x c).1)) s (api x c).2 := by
  have hbox : ∀ box, (frameDuty.next (duty u) (.sdk c) (api x c).1).box = some box →
      SelfPointing box := by
    have hsame : (frameDuty.next (duty u) (.sdk c) (api x c).1).box = (duty u).box := by
      cases c <;> rfl
    rw [hsame]
    exact h.boxes u
  have hheld : ∀ raw ptr, held (api x c).2 raw ptr → held x raw ptr ∨ Has view raw ptr := by
    intro raw ptr hp
    cases c
    case vmbCaptureFrameQueue raw' ptr' trampoline =>
      rcases rules.queue x raw' ptr' trampoline raw ptr hp with hold | ⟨rfl, rfl⟩
      · exact Or.inl hold
      · exact Or.inr ⟨u, Or.inl hpre.1, hpre.2.2⟩
    all_goals exact Or.inl (rules.other x _ raw ptr (by simp) hp)
  by_cases hannounce : announcesTo (.sdk c) = none
  · exact h.unframed ⟨hannounce, hc, fun slot ctx hne => by cases hne⟩ hpre trivial hbox h.tabled
      h.pointing hheld
  · cases c
    case vmbFrameAnnounce raw ptr =>
      have hnext : (atSdk.next (view u) (.sdk (.vmbFrameAnnounce raw ptr))
            (api x (.vmbFrameAnnounce raw ptr)).1).frames = (view u).frames ∧
          ∀ raw', (atSdk.next (view u) (.sdk (.vmbFrameAnnounce raw ptr))
            (api x (.vmbFrameAnnounce raw ptr)).1).Owns raw' ↔ (view u).Owns raw' := by
        simp only [atSdk]
        split <;> exact ⟨rfl, fun _ => Iff.rfl⟩
      refine h.update (fun raw' ptr' howns hptr => ?_) (fun ptr' _ => ?_) rfl
        (fun ptr' _ => Or.inr (hquiet hannounce)) hbox (fun u' slot ptr' hframe => ?_) h.pointing hheld
      · rw [hnext.1]
        exact ⟨(hnext.2 raw').mpr howns, hptr⟩
      · exact ⟨raw, (hnext.2 raw).mpr (Or.inl hpre.1)⟩
      · refine h.tabled u' slot ptr' ?_
        rcases eq_or_ne u' u with rfl | hne
        · rw [Function.update_self, hnext.1] at hframe
          exact hframe
        · rw [Function.update_of_ne hne] at hframe
          exact hframe
    all_goals exact absurd rfl hannounce

/-- **So does a revocation**, when no frame of another thread is announced, no trampoline of the camera is
running, and the SDK does not refuse it. -/
theorem FramesKept.revoke (h : FramesKept held calls duty view s x) (rules : QueueRules api held)
    {raw : VmbHandle} (hsingle : ∀ raw', (view u).Owns raw' → raw' = raw)
    (hothers : ∀ u' ptr, u' ≠ u → ¬ (view u').Announced ptr)
    (hidle : ∀ call ∈ calls, call.cameraHandle ≠ raw)
    (haccepted : (api x (.vmbFrameRevokeAll raw)).1 = (0 : Int32)) :
    FramesKept held calls
      (Function.update duty u
        (frameDuty.next (duty u) (.sdk (.vmbFrameRevokeAll raw)) (api x (.vmbFrameRevokeAll raw)).1))
      (Function.update view u
        (atSdk.next (view u) (.sdk (.vmbFrameRevokeAll raw)) (api x (.vmbFrameRevokeAll raw)).1))
      s (api x (.vmbFrameRevokeAll raw)).2 := by
  -- all frames are frames of this camera
  have hhas : ∀ raw' ptr, Has view raw' ptr → raw' = raw := by
    rintro raw' ptr ⟨u', howns, hptr⟩
    rcases eq_or_ne u' u with rfl | hne
    · exact hsingle raw' howns
    · exact absurd (Or.inr hptr) (hothers u' ptr hne)
  have hnone : ∀ u' ptr,
      ¬ (Function.update view u { view u with frames := [], pending := none } u').Announced ptr := by
    intro u' ptr hptr
    rcases eq_or_ne u' u with rfl | hne
    · rw [Function.update_self] at hptr
      rcases hptr with hptr | hptr
      · cases hptr
      · exact absurd hptr List.not_mem_nil
    · rw [Function.update_of_ne hne] at hptr
      exact hothers u' ptr hne hptr
  refine ⟨fun raw' ptr hp => ?_, fun call hcall => ?_, h.sane, fun u' slot ptr hframe => ?_,
    fun u' ptr hptr => absurd hptr (hnone u' ptr), fun _ _ u' ptr => hnone u' ptr, fun u' box hb => ?_,
    h.pointing⟩
  · have hold := rules.other x _ raw' ptr (by simp) hp
    obtain rfl := hhas raw' ptr (h.held raw' ptr hold)
    exact absurd hp (rules.revoke x raw' ptr haccepted)
  · exact absurd (hhas _ _ (h.running call hcall)) (hidle call hcall)
  · exact absurd (Or.inr (List.mem_map_of_mem hframe)) (hnone u' ptr)
  · rcases eq_or_ne u' u with rfl | hne
    · rw [Function.update_self] at hb
      exact h.boxes u' box hb
    · rw [Function.update_of_ne hne] at hb
      exact h.boxes u' box hb

/-- A context that has been allocated knows its address. -/
theorem selfPointing_newContext (s : FfiState) (size : UInt32) :
    SelfPointing (s.access (.newContext size)).1 := by
  refine ⟨?_, rfl⟩
  have haddr : (s.access (.newContext size)).1.addr = s.heap.brk + max size.toNat 1 :=
    announcedBox_addr s size
  omega

/-- **An access keeps the frames.** -/
theorem FramesKept.access (h : FramesKept held calls duty view s x) {c : Access}
    (hpre : atSdk.pre (view u) (.access c)) (hduty : frameDuty.pre (duty u) (.access c))
    (hanswers : Answers (view u) (.access c) (s.access c).1)
    (hslot : ∀ slot ctx, c = .insertFrame slot ctx → ∀ u' ptr, (slot, ptr) ∉ (view u').frames) :
    FramesKept held calls (Function.update duty u (frameDuty.next (duty u) (.access c) (s.access c).1))
      (Function.update view u (atSdk.next (view u) (.access c) (s.access c).1)) (s.access c).2 x := by
  cases c
  case newContext size =>
    refine h.unframed ⟨rfl, rfl, by simp⟩ hpre hanswers (fun box hb => ?_) h.tabled h.pointing
      fun _ _ => Or.inl
    obtain rfl := Option.some.inj hb
    exact selfPointing_newContext s size
  case insertFrame slot ctx =>
    have hpending : (view u).pending = some ctx.addr := hpre
    refine h.update (fun raw ptr howns hptr => ⟨howns, ?_⟩) (fun ptr _ => ?_) rfl
      (fun ptr _ => Or.inl ⟨ctx.addr, Or.inl hpending⟩) (h.boxes u) (fun u' slot' ptr hframe => ?_)
      (fun slot' box hb => ?_) fun _ _ => Or.inl
    · show ptr ∈ ((view u).frames ++ [(slot, ctx.addr)]).map Prod.snd
      rw [List.map_append]
      exact List.mem_append_left _ hptr
    · exact h.rooted u ctx.addr (Or.inl hpending)
    · -- the slot is new, so the frames there were are where they were
      have hold : (slot', ptr) ∈ (view u').frames →
          ∃ box, (s.frames.insert slot ctx).lookup slot' = some box ∧ box.addr = ptr := fun hmem => by
        have hne : slot' ≠ slot := by
          rintro rfl
          exact hslot slot' ctx rfl u' ptr hmem
        rw [Finmap.lookup_insert_of_ne _ hne]
        exact h.tabled u' slot' ptr hmem
      rcases eq_or_ne u' u with rfl | hne
      · rw [Function.update_self] at hframe
        rcases List.mem_append.mp hframe with hmem | hmem
        · exact hold hmem
        · cases List.mem_singleton.mp hmem
          exact ⟨ctx, Finmap.lookup_insert _, rfl⟩
      · rw [Function.update_of_ne hne] at hframe
        exact hold hframe
    · rcases lookup_insert_eq_some.mp hb with ⟨-, rfl⟩ | ⟨-, hb⟩
      · exact h.boxes u _ (hduty.2 _ _ rfl)
      · exact h.pointing slot' box hb
  case patchFrame slot callback =>
    rcases hctx : s.frames.lookup slot with - | ctx
    · have hsame : (s.access (.patchFrame slot callback)).2 = s := by
        unfold FfiState.access
        simp only [hctx]
      refine h.unframed ⟨rfl, rfl, by simp⟩ hpre hanswers (h.boxes u) ?_ ?_ fun _ _ => Or.inl
      · rw [hsame]
        exact h.tabled
      · rw [hsame]
        exact h.pointing
    · have hsame : (s.access (.patchFrame slot callback)).2.frames =
          s.frames.insert slot (ctx.setCallback callback).vmbFrameMutPtr.2 := by
        unfold FfiState.access
        simp only [hctx]
      refine h.unframed ⟨rfl, rfl, by simp⟩ hpre hanswers (h.boxes u) (fun u' slot' ptr hframe => ?_)
        (fun slot' box hb => ?_) fun _ _ => Or.inl
      · obtain ⟨box, hbox, haddr⟩ := h.tabled u' slot' ptr hframe
        rw [hsame]
        rcases eq_or_ne slot' slot with rfl | hne
        · obtain rfl := Option.some.inj (hctx.symm.trans hbox)
          exact ⟨_, Finmap.lookup_insert _, haddr⟩
        · rw [Finmap.lookup_insert_of_ne _ hne]
          exact ⟨box, hbox, haddr⟩
      · rw [hsame] at hb
        rcases lookup_insert_eq_some.mp hb with ⟨-, rfl⟩ | ⟨-, hb⟩
        · exact ⟨(h.pointing slot ctx hctx).1, rfl⟩
        · exact h.pointing slot' box hb
  case clearFrames =>
    -- the thread has revoked its frames, and they were the last
    have hclears := hduty.1.mpr rfl
    refine h.unframed ⟨rfl, rfl, by simp⟩ hpre hanswers (h.boxes u) (fun u' slot ptr hframe => ?_)
      (fun slot box hb => ?_) fun _ _ => Or.inl
    · exact absurd (Or.inr (List.mem_map_of_mem hframe)) (h.cleared u hclears u' ptr)
    · have hb : Finmap.lookup slot (∅ : Finmap fun _ => Box TrampolineContext) = some box := hb
      rw [Finmap.lookup_empty] at hb
      cases hb
  all_goals
    refine h.unframed ⟨rfl, rfl, by simp⟩ hpre hanswers (h.boxes u) ?_ ?_ fun _ _ => Or.inl
    · exact h.tabled
    · exact h.pointing

/-! ### What the SDK does with a frame -/

omit [DecidableEq ι]

/-- The SDK writes a descriptor. -/
theorem FramesKept.fill (h : FramesKept held calls duty view s x) (slot : FrameSlotId) (w : Filled) :
    FramesKept held calls duty view (s.fill slot w) x :=
  { h with
    tabled := fun u slot' ptr hframe => by
      obtain ⟨box, hbox, rfl⟩ := h.tabled u slot' ptr hframe
      exact FfiState.lookup_fill_of_lookup hbox
    pointing := fun slot' box' hb => by
      obtain ⟨box, hb, haddr, -, hself⟩ := FfiState.lookup_fill hb
      have hold := h.pointing slot' box hb
      exact ⟨haddr ▸ hold.1, haddr ▸ hself ▸ hold.2⟩ }

/-- A frame of a thread has its context in the table. -/
theorem FramesKept.alive (h : FramesKept held calls duty view s x) {raw : VmbHandle} {ptr : Nat}
    (hhas : Has view raw ptr) : s.Alive ptr := by
  obtain ⟨u, -, hptr⟩ := hhas
  obtain ⟨⟨slot, ptr⟩, hframe, rfl⟩ := List.mem_map.mp hptr
  exact ⟨slot, h.tabled u slot ptr hframe⟩

/-- The SDK calls the trampoline with a frame it holds. -/
theorem FramesKept.callback (h : FramesKept held calls duty view s x) {raw : VmbHandle} {ptr : Nat}
    (hheld : held x raw ptr) (byte : Nat → UInt8) :
    FramesKept held (calls ++ [⟨raw, ptr, frameCallbackTrampoline ⟨s.contextAt, byte⟩ raw ptr⟩]) duty
      view s x := by
  have hhas := h.held raw ptr hheld
  refine { h with running := fun call hcall => ?_, sane := fun call hcall => ?_ }
  · rcases List.mem_append.mp hcall with hcall | hcall
    · exact h.running call hcall
    · rw [List.mem_singleton.mp hcall]
      exact hhas
  · rcases List.mem_append.mp hcall with hcall | hcall
    · exact h.sane call hcall
    · rw [List.mem_singleton.mp hcall]
      obtain ⟨slot, box, hbox, rfl⟩ := h.alive hhas
      exact trampoline_sane h.pointing hbox raw byte

/-- A trampoline returns. -/
theorem FramesKept.drop (h : FramesKept held calls duty view s x) {calls' : List FrameCall}
    (hsub : calls' ⊆ calls) : FramesKept held calls' duty view s x :=
  { h with
    running := fun call hcall => h.running call (hsub hcall)
    sane := fun call hcall => h.sane call (hsub hcall) }

/-- A trampoline goes on: it gives its own frame back at most. -/
theorem FramesKept.resume (h : FramesKept held calls duty view s x) (rules : QueueRules api held)
    {call : FrameCall} (hcall : call ∈ calls) {c : Upcall} {k : c.Resp → Prog Upcalls Unit}
    (hrest : call.rest = .call c k) (hostTsNs : UInt64) (outcome : Exit Unit) {calls' : List FrameCall}
    (hcalls' : ∀ call' ∈ calls', call' ∈ calls ∨
      call' = { call with rest := k (answerUpcall api x hostTsNs outcome c).1 }) :
    FramesKept held calls' duty view s (answerUpcall api x hostTsNs outcome c).2 := by
  have hsane := h.sane call hcall
  rw [hrest] at hsane
  refine ⟨fun raw ptr hp => ?_, fun call' hcall' => ?_, fun call' hcall' => ?_, h.tabled, h.rooted,
    h.cleared, h.boxes, h.pointing⟩
  · cases c
    case vmbCaptureFrameQueue raw' ptr' trampoline =>
      obtain ⟨rfl, rfl⟩ := hsane.1
      rcases rules.queue x _ _ trampoline raw ptr hp with hold | ⟨rfl, rfl⟩
      · exact h.held raw ptr hold
      · exact h.running call hcall
    all_goals exact h.held raw ptr hp
  · rcases hcalls' call' hcall' with hold | rfl
    · exact h.running call' hold
    · exact h.running call hcall
  · rcases hcalls' call' hcall' with hold | rfl
    · exact h.sane call' hold
    · exact hsane.2 _

end Steps

end Vmb.Ffi

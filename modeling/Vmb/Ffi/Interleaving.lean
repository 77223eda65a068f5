/-
# Vmb.Ffi.Interleaving -- cameras on threads of their own

Any number of threads, each with an object of its own, use one adapter and interleave at the
granularity of whole port calls. The outcome of a camera's operation should depend on the return
codes of its own SDK calls only: `start_capture` returns the first failure among them, and
`stop_capture` and the drop return `Ok`.

The adapter keeps one frame table for all cameras and `frame_revoke_all` clears it, so a start that
still has frames to queue fails when another camera revokes. `outcomes_decided` says that nothing
else interferes: the outcomes are decided exactly if every queued frame was announced after the last
revocation of another thread, and no start panics in the allocation of its slot vector.
-/
import Vmb.Ffi.Tables
import Vmb.Lib.Pool

namespace Vmb.Ffi

open Vmb.Lib Vmb.Core Vmb.Sdk

/-! ## Port calls with the SDK calls behind them -/

/-- The port, where an answer comes with the SDK calls that led to it. -/
@[reducible] def TracedPort : Signature := ⟨PortCall, fun c => c.Resp × List (Event VmbC)⟩

/-- The adapter over `api`, which reports the SDK calls it makes. -/
def tracedRuntime {τ : Type} (api : VmbApi τ) : Machine TracedPort (FfiState × τ) := fun s c =>
  let r := (s.1.dispatch c).run api.logged (s.2, [])
  ((r.1.1, r.2.2), (r.1.2, r.2.1))

variable {α β τ ι : Type}

/-- Run domain code, keeping the return codes of its SDK calls. -/
def traced : PortM α → List Int32 → Prog TracedPort (α × List Int32)
  | .done a, codes => .done (a, codes)
  | .call c k, codes =>
    .call (S := TracedPort) c fun r => traced (k r.1) (codes ++ r.2.map code)

theorem traced_bind (p : PortM α) (f : α → PortM β) (codes : List Int32) :
    traced (p >>= f) codes = traced p codes >>= fun r => traced (f r.1) r.2 := by
  induction p generalizing codes with
  | done a => rfl
  | call c k ih =>
      rw [Prog.call_bind, traced, traced, Prog.call_bind]
      exact congrArg _ (funext fun r => ih r.1 _)

/-! ## What an operation should return -/

/-- The first failure among the return codes. -/
def firstFailure (codes : List Int32) : Result Unit :=
  match codes.find? (· ≠ 0) with
  | none => .ok ()
  | some rc => .error (sdkError rc)

/-- A finished operation: the method, the object it was called on, the return codes of its SDK calls
and what it returned. -/
structure Record where
  action : Action
  before : Option Object
  codes : List Int32
  outcome : Outcome
  deriving DecidableEq

/-- The outcome of a camera's operation is decided by its own SDK calls. -/
structure Decided (r : Record) : Prop where
  succeeded : ∀ n f cam g, r.action = .startCapture n f → r.before = some (.camera cam g) →
    cam.session = none → (∀ rc ∈ r.codes, rc = 0) → r.outcome = .ofResult (.ok () : Result Unit)
  started : ∀ n f cam g, r.action = .startCapture n f → r.before = some (.camera cam g) →
    cam.session = none → r.outcome = .ofResult (firstFailure r.codes)
  refused : ∀ n f cam g, r.action = .startCapture n f → r.before = some (.camera cam g) →
    cam.session ≠ none → r.outcome = .ofResult (.error .captureAlreadyRunning : Result Unit)
  ended : ∀ cam g, r.action = .stopCapture ∨ r.action = .drop → r.before = some (.camera cam g) →
    r.outcome = .ofResult (.ok () : Result Unit)

/-- The number of buffers, if the operation is a start on a camera without a session. -/
def Record.buffers (r : Record) : Option Nat :=
  match r.action, r.before with
  | .startCapture n _, some (.camera cam _) => if cam.session = none then some n else none
  | _, _ => none

/-- The slot vector of a start that gets as far as its allocation can be allocated. The only SDK call
before it is that for the payload size. -/
def Record.Allocates (r : Record) : Prop :=
  (∀ rc ∈ r.codes, rc = 0) → ∀ n ∈ r.buffers, Allocatable n

instance (r : Record) : Decidable r.Allocates :=
  inferInstanceAs (Decidable ((∀ rc ∈ r.codes, rc = 0) → ∀ n ∈ r.buffers, Allocatable n))

/-- An operation of a thread. -/
def performTraced (a : Action) (obj : Option Object) : Prog TracedPort (Record × Option Object) := do
  let r ← traced (a.perform obj) []
  pure (⟨a, obj, r.2, r.1.1⟩, r.1.2)

/-- The answer of a fallible capture call is the return code of its SDK call, and installing a
callback calls no SDK function. -/
def Honest : (c : PortCall) → c.Resp × List (Event VmbC) → Prop
  | .payloadSize _, a => (a.1.map fun _ => ()) = firstFailure (a.2.map code)
  | .announceFrame _ _, a => (a.1.map fun _ => ()) = firstFailure (a.2.map code)
  | .captureStart _, a => a.1 = firstFailure (a.2.map code)
  | .queueFrame _ _ _, a => a.1 = firstFailure (a.2.map code)
  | .runFeatureCommand _ _, a => a.1 = firstFailure (a.2.map code)
  | .installFrameCallback _, a => a.2 = []
  | _, _ => True

/-! ## Honest answers decide the outcome -/

theorem firstFailure_eq_ok {codes : List Int32} :
    firstFailure codes = .ok () ↔ ∀ rc ∈ codes, rc = 0 := by
  rcases hcodes : codes.find? (· ≠ 0) with - | rc
  · have hzero := List.find?_eq_none.mp hcodes
    rw [firstFailure, hcodes]
    exact iff_of_true rfl fun rc hrc => by simpa using hzero rc hrc
  · have hne : rc ≠ 0 := by simpa using List.find?_some hcodes
    rw [firstFailure, hcodes]
    exact iff_of_false (fun h => by cases h) fun h => hne (h rc (List.mem_of_find?_eq_some hcodes))

theorem firstFailure_append_ok {codes more : List Int32} (h : firstFailure codes = .ok ()) :
    firstFailure (codes ++ more) = firstFailure more := by
  unfold firstFailure at h ⊢
  rw [List.find?_append]
  rcases hcodes : codes.find? (· ≠ 0) with - | rc
  · rw [hcodes]
    rfl
  · rw [hcodes] at h
    cases h

theorem firstFailure_append_error {codes more : List Int32} {e : VmbError}
    (h : firstFailure codes = .error e) : firstFailure (codes ++ more) = .error e := by
  unfold firstFailure at h ⊢
  rw [List.find?_append]
  rcases hcodes : codes.find? (· ≠ 0) with - | rc
  · rw [hcodes] at h
    cases h
  · rw [hcodes] at h ⊢
    exact h

/-- With honest answers, `p` ends in `P`. -/
def Leads (p : PortM α) (codes : List Int32) (P : α → List Int32 → Prop) : Prop :=
  (traced p codes).Ensures (.free TracedPort) Honest (fun r _ => P r.1 r.2) ()

theorem leads_bind {p : PortM α} {f : α → PortM β} {codes : List Int32} {P : β → List Int32 → Prop} :
    Leads (p >>= f) codes P ↔ Leads p codes fun a codes' => Leads (f a) codes' P := by
  unfold Leads
  rw [traced_bind, Prog.ensures_bind]

theorem leads_port {c : PortCall} {f : c.Resp → PortM α} {codes : List Int32}
    {P : α → List Int32 → Prop}
    (h : ∀ r evs, Honest c (r, evs) → Leads (f r) (codes ++ evs.map code) P) :
    Leads (port c >>= f) codes P :=
  ⟨trivial, fun r hr => h r.1 r.2 hr⟩

theorem Leads.mono {p : PortM α} {codes : List Int32} {P P' : α → List Int32 → Prop}
    (h : Leads p codes P) (hP : ∀ a codes', P a codes' → P' a codes') : Leads p codes P' :=
  Prog.Ensures.mono h fun r _ hr => hP r.1 r.2 hr

/-- Return codes are only added. -/
theorem leads_append (p : PortM α) (codes : List Int32) :
    Leads p codes fun _ codes' => ∃ more, codes' = codes ++ more := by
  induction p generalizing codes with
  | done a => exact ⟨[], (List.append_nil codes).symm⟩
  | call c k ih =>
      refine ⟨trivial, fun r _ => ?_⟩
      show Leads (k r.1) (codes ++ r.2.map code) fun _ codes' => ∃ more, codes' = codes ++ more
      refine (ih r.1 (codes ++ r.2.map code)).mono fun _ codes' hcodes => ?_
      obtain ⟨more, rfl⟩ := hcodes
      exact ⟨r.2.map code ++ more, List.append_assoc _ _ _⟩

/-- The result so far is the first failure so far. -/
def Reported (r : Result α) (codes : List Int32) : Prop := (r.map fun _ => ()) = firstFailure codes

theorem announceFrames_leads (h : CameraHandle) (payload : UInt32) (n : Nat)
    (slots : List FrameSlotId) {codes : List Int32} (hcodes : firstFailure codes = .ok ()) :
    Leads (Camera.announceFrames h payload n slots) codes Reported := by
  induction n generalizing slots codes with
  | zero => exact hcodes.symm
  | succ n ih =>
      refine leads_port fun r evs hr => ?_
      have hcodes' := (firstFailure_append_ok hcodes).trans hr.symm
      rcases r with e | slot
      · exact hcodes'.symm
      · exact ih (slots ++ [slot]) hcodes'

theorem queueFrames_leads (h : CameraHandle) (cb : FrameCallbackId) (slots : List FrameSlotId)
    {codes : List Int32} (hcodes : firstFailure codes = .ok ()) :
    Leads (Camera.queueFrames h cb slots) codes Reported := by
  induction slots generalizing codes with
  | nil => exact hcodes.symm
  | cons slot slots ih =>
      refine leads_port fun r evs hr => ?_
      have hcodes' := (firstFailure_append_ok hcodes).trans hr.symm
      rcases r with e | ⟨⟨⟩⟩
      · exact hcodes'.symm
      · exact ih hcodes'

theorem primeCapture_leads (h : CameraHandle) (payload : UInt32) (cb : FrameCallbackId) (n : Nat)
    {codes : List Int32} (hcodes : firstFailure codes = .ok ()) :
    Leads (Camera.primeCapture h payload cb n []) codes Reported := by
  refine leads_bind.mpr ((announceFrames_leads h payload n [] hcodes).mono fun r codes hr => ?_)
  rcases r with e | slots
  · exact hr
  · refine leads_port fun r evs hr' => ?_
    have hcodes' := (firstFailure_append_ok hr.symm).trans hr'.symm
    rcases r with e | ⟨⟨⟩⟩
    · exact hcodes'.symm
    · refine leads_bind.mpr ((queueFrames_leads h cb slots hcodes').mono fun r codes hr => ?_)
      rcases r with e | ⟨⟨⟩⟩
      · exact hr
      · refine leads_port fun r evs hr' => ?_
        have hcodes' := (firstFailure_append_ok hr.symm).trans hr'.symm
        rcases r with e | ⟨⟨⟩⟩
        · exact hcodes'.symm
        · exact hcodes'.symm

/-- `start_capture` returns the first failure of its own SDK calls, unless it panics; what the teardown
calls return does not matter. -/
theorem startCapture_leads {cam : Camera} (hs : cam.session = none) (n : Nat) (f : FrameCallback) :
    Leads (cam.startCapture n f) [] fun r codes =>
      (Allocatable n ∨ firstFailure codes ≠ .ok () →
        Outcome.finished r.1 = .ofResult (firstFailure codes)) ∧
      (¬ Allocatable n → firstFailure codes = .ok () → ∃ m, r.1 = .panicked m) := by
  unfold Camera.startCapture
  rw [hs]
  refine leads_port fun r evs hr => ?_
  have hcodes : firstFailure ([] ++ evs.map code) = r.map fun _ => () := hr.symm
  rcases r with e | payload
  · refine ⟨fun _ => ?_, fun _ hok => ?_⟩
    · rw [hcodes]
      rfl
    · cases hcodes.symm.trans hok
  refine leads_port fun cb evs' hevs => ?_
  obtain rfl : evs' = [] := hevs
  rw [List.map_nil, List.append_nil]
  by_cases hn : Allocatable n
  · rw [show withCapacity n = .returned [] from if_pos hn]
    refine leads_bind.mpr ((primeCapture_leads cam.handle payload cb n hcodes).mono fun r codes hr => ?_)
    rcases r with e | slots
    -- the return codes of the teardown come after the failure that is reported
    · refine leads_bind.mpr ((leads_append _ codes).mono fun _ codes' hcodes' => ?_)
      obtain ⟨more, rfl⟩ := hcodes'
      refine ⟨fun _ => ?_, fun hn' => absurd hn hn'⟩
      rw [firstFailure_append_error hr.symm]
      rfl
    · refine ⟨fun _ => ?_, fun hn' => absurd hn hn'⟩
      rw [← hr]
      rfl
  · obtain ⟨m, hm⟩ : ∃ m, withCapacity n = .panicked m := ⟨_, if_neg hn⟩
    rw [hm]
    exact ⟨fun h => absurd hcodes (h.resolve_left hn), fun _ _ => ⟨m, rfl⟩⟩

theorem stopCapture_leads (cam : Camera) (codes : List Int32) :
    Leads cam.stopCapture codes fun r _ => r.1 = .ok () := by
  unfold Camera.stopCapture
  rcases cam.session with - | session
  · rfl
  · refine leads_port fun _ evs _ => ?_
    exact leads_bind.mpr ((leads_append _ _).mono fun _ _ _ => rfl)

/-- A start is decided by its own SDK calls, whether it is refused or not, unless it panics. -/
theorem startCaptureOn_leads (cam : Camera) (g : FrameCallback) (n : Nat) (f : FrameCallback) :
    Leads (Action.startCaptureOn cam g n f) [] fun r codes =>
      Record.Allocates ⟨.startCapture n f, some (.camera cam g), codes, r.1⟩ ↔
        Decided ⟨.startCapture n f, some (.camera cam g), codes, r.1⟩ := by
  rcases hs : cam.session with - | session
  · refine leads_bind.mpr ((startCapture_leads hs n f).mono fun r codes hr => ?_)
    refine ⟨fun halloc => ?_, ?_⟩
    · have hout : Outcome.finished r.1 = .ofResult (firstFailure codes) := by
        refine hr.1 ?_
        by_cases hn : Allocatable n
        · exact Or.inl hn
        · exact Or.inr fun hok => hn (halloc (firstFailure_eq_ok.mp hok) n (if_pos hs))
      refine ⟨fun _ _ _ _ _ _ _ hzero => ?_, fun _ _ _ _ _ _ _ => hout,
        fun _ _ _ _ _ hbefore hsome => ?_, fun _ _ h => ?_⟩
      · exact hout.trans (by rw [firstFailure_eq_ok.mpr hzero])
      · cases hbefore
        exact absurd hs hsome
      · simp at h
    · intro hdecided hzero n' hn'
      obtain rfl : n = n' := Option.some.inj ((if_pos hs).symm.trans hn')
      by_contra hn
      obtain ⟨m, hm⟩ := hr.2 hn (firstFailure_eq_ok.mpr hzero)
      have hout : Outcome.finished r.1 = _ := hdecided.started n f cam g rfl rfl hs
      rw [hm] at hout
      cases hout
  · have hprog : cam.startCapture n f = pure (.returned (.error .captureAlreadyRunning), cam) := by
      unfold Camera.startCapture
      rw [hs]
    have hsession : ∀ cam' g', some (Object.camera cam g) = some (.camera cam' g') →
        cam'.session ≠ none := by
      rintro cam' g' ⟨⟩ hnone
      rw [hs] at hnone
      cases hnone
    unfold Action.startCaptureOn
    rw [hprog]
    refine iff_of_true (fun _ _ hn => absurd ((if_neg (hsession cam g rfl)).symm.trans hn) (by simp))
      ⟨fun _ _ cam' g' _ hbefore hnone => ?_, fun _ _ cam' g' _ hbefore hnone => ?_,
        fun _ _ _ _ _ _ _ => rfl, fun _ _ h => ?_⟩
    · exact absurd hnone (hsession cam' g' hbefore)
    · exact absurd hnone (hsession cam' g' hbefore)
    · simp at h

theorem Record.allocates_of_not_start {r : Record} (h : ∀ n f, r.action ≠ .startCapture n f) :
    r.Allocates := by
  intro _ n hn
  unfold Record.buffers at hn
  split at hn
  · exact absurd ‹_› (h _ _)
  · cases hn

theorem Record.allocates_of_not_camera {r : Record} (h : ∀ cam g, r.before ≠ some (.camera cam g)) :
    r.Allocates := by
  intro _ n hn
  unfold Record.buffers at hn
  split at hn
  · exact absurd ‹_› (h _ _)
  · cases hn

/-- **Honest answers decide the outcome** of every operation, unless it is a start that panics. -/
theorem perform_leads (a : Action) (obj : Option Object) :
    Leads (a.perform obj) [] fun r codes =>
      Record.Allocates ⟨a, obj, codes, r.1⟩ ↔ Decided ⟨a, obj, codes, r.1⟩ := by
  by_cases hcam : ∃ cam g, obj = some (.camera cam g)
  · obtain ⟨cam, g, rfl⟩ := hcam
    have hother : ∀ o, (∀ n f, a ≠ .startCapture n f) → a ≠ .stopCapture → a ≠ .drop →
        ∀ codes, Decided ⟨a, some (.camera cam g), codes, o⟩ := by
      intro o hstart hstop hdrop codes
      exact ⟨fun n f _ _ h => absurd h (hstart n f), fun n f _ _ h => absurd h (hstart n f),
        fun n f _ _ h => absurd h (hstart n f), fun _ _ h => absurd h (by simp [hstop, hdrop])⟩
    cases a with
    | startCapture n f => exact startCaptureOn_leads cam g n f
    | stopCapture =>
        refine leads_bind.mpr ((stopCapture_leads cam []).mono fun r codes hr => ?_)
        refine iff_of_true (Record.allocates_of_not_start fun _ _ h => by cases h)
          ⟨fun _ _ _ _ h => ?_, fun _ _ _ _ h => ?_, fun _ _ _ _ h => ?_, fun _ _ _ _ => ?_⟩
        · cases h
        · cases h
        · cases h
        show Outcome.ofResult r.1 = _
        rw [hr]
    | drop =>
        refine leads_bind.mpr ((leads_append _ _).mono fun _ codes _ => ?_)
        refine iff_of_true (Record.allocates_of_not_start fun _ _ h => by cases h)
          ⟨fun _ _ _ _ h => ?_, fun _ _ _ _ h => ?_, fun _ _ _ _ h => ?_, fun _ _ _ _ => rfl⟩
        · cases h
        · cases h
        · cases h
    | _ =>
        refine (leads_append _ _).mono fun r codes _ =>
          iff_of_true (Record.allocates_of_not_start fun _ _ h => by cases h)
            (hother r.1 ?_ ?_ ?_ codes) <;> simp
  · -- Nothing is asked of an operation on anything but a camera.
    refine (leads_append _ _).mono fun r codes _ =>
      iff_of_true (Record.allocates_of_not_camera fun cam g h => hcam ⟨cam, g, h⟩) ?_
    exact ⟨fun _ _ cam g _ h => absurd ⟨cam, g, h⟩ hcam, fun _ _ cam g _ h => absurd ⟨cam, g, h⟩ hcam,
      fun _ _ cam g _ h => absurd ⟨cam, g, h⟩ hcam, fun cam g _ h => absurd ⟨cam, g, h⟩ hcam⟩

/-! ## Callbacks that are left behind -/

/-- A start that panics leaves its callback. The calls that find no callback otherwise forget it. -/
def letGo (v : Holdings) : PortCall → Holdings
  | .openCamera _ => { v with callback := none }
  | .closeCamera _ => { v with callback := none }
  | .installFrameCallback _ => { v with callback := none }
  | .installDiscoveryCallback _ => { v with callback := none }
  | _ => v

/-- `v'` is `v`, perhaps with a callback that has been left behind. -/
def Trails (v v' : Holdings) : Prop :=
  v' = v ∨ v.callback = none ∧ ∃ c, v' = { v with callback := some c }

variable {v v' v'' : Holdings}

theorem Trails.trans (h : Trails v v') (h' : Trails v' v'') : Trails v v'' := by
  rcases h' with rfl | ⟨hnone, c, rfl⟩
  · exact h
  · rcases h with rfl | ⟨-, c', rfl⟩
    · exact Or.inr ⟨hnone, c, rfl⟩
    · cases hnone

/-- A call of an owner finds no callback that is to be forgotten. -/
theorem letGo_eq_self {c : PortCall} (hc : mayCall v c) : letGo v c = v := by
  have hforget : v.callback = none → { v with callback := none } = v := by
    intro hnone
    rw [← hnone]
  cases c with
  | openCamera id =>
      obtain rfl : v = {} := hc
      rfl
  | closeCamera h => exact hforget hc.2.1
  | installFrameCallback f => exact hforget hc.2
  | installDiscoveryCallback f =>
      obtain rfl : v = {} := hc
      rfl
  | _ => rfl

/-- **A callback that has been left behind is in nobody's way**: to the next call it is gone, or the call
is not about callbacks. -/
theorem Trails.call_cases (h : Trails v v') {c : PortCall} (hc : mayCall v c) :
    letGo v' c = v ∨
      mayCall (letGo v' c) c ∧ ∀ r, Trails (afterCall v c r) (afterCall (letGo v' c) c r) := by
  rcases h with rfl | ⟨hnone, cb, rfl⟩
  · exact Or.inl (letGo_eq_self hc)
  have hforget : { v with callback := none } = v := by
    rw [← hnone]
  cases c with
  | openCamera id => exact Or.inl hforget
  | closeCamera h => exact Or.inl hforget
  | installFrameCallback f => exact Or.inl hforget
  | installDiscoveryCallback f => exact Or.inl hforget
  | announceFrame h size =>
      have hsome := hc.2.1
      rw [hnone] at hsome
      cases hsome
  | captureStart h =>
      have hsome := hc.2.1
      rw [hnone] at hsome
      cases hsome
  | queueFrame h slot id =>
      obtain ⟨f, hf⟩ := Holdings.callbackId_eq_some.mp hc.2.1
      cases hnone.symm.trans hf
  | uninstallFrameCallback id =>
      obtain ⟨f, hf⟩ := Holdings.callbackId_eq_some.mp hc.1
      cases hnone.symm.trans hf
  | startup => exact absurd hc id
  | shutdown => exact absurd hc id
  | listCameras => exact absurd hc id
  | _ =>
      refine Or.inr ⟨hc, fun r => Or.inr ⟨?_, cb, ?_⟩⟩
      · rw [afterCall_fields]
        exact hnone
      · rw [afterCall_fields, afterCall_fields]
        rfl

theorem Trails.pre (h : Trails v v') {c : PortCall} (hc : mayCall v c) : mayCall (letGo v' c) c := by
  rcases h.call_cases hc with heq | ⟨hpre, -⟩
  · rw [heq]
    exact hc
  · exact hpre

theorem Trails.next (h : Trails v v') {c : PortCall} (hc : mayCall v c) (r : c.Resp) :
    Trails (afterCall v c r) (afterCall (letGo v' c) c r) := by
  rcases h.call_cases hc with heq | ⟨-, hnext⟩
  · rw [heq]
    exact Or.inl rfl
  · exact hnext r

/-! ## Honest answers -/

/-- The protocol of an owner, who may have left a callback behind, and may also call the methods of a
`VmbSystem`. -/
@[reducible] def openProtocol : Contract TracedPort Holdings :=
  ⟨fun v c => mayCall (letGo v c) c ∨ OfSystem c, fun v c r => afterCall (letGo v c) c r.1⟩

theorem traced_ensures {p : PortM α} {Q : α → Holdings → Prop} (h : p.Meets protocol Q v)
    (hv : Trails v v') (codes : List Int32) :
    (traced p codes).Ensures openProtocol Honest (fun r w' => ∃ w, Q r.1 w ∧ Trails w w') v' := by
  induction p generalizing v v' codes with
  | done a => exact ⟨v, h, hv⟩
  | call c k ih =>
      exact ⟨Or.inl (hv.pre h.1), fun r _ => ih r.1 (h.2 r.1) (hv.next h.1 r.1) _⟩

/-- What a thread has between two operations. -/
def AtRest (obj : Option Object) (v : Holdings) : Prop := Trails (ownedBy obj) v

/-- An operation of a thread keeps the protocol, and honest answers decide its outcome. -/
theorem performTraced_ensures (a : Action) {obj : Option Object} (hv : AtRest obj v) :
    (performTraced a obj).Ensures openProtocol Honest
      (fun r v => AtRest r.2 v ∧ (r.1.Allocates ↔ Decided r.1)) v := by
  have hview : (traced (a.perform obj) []).Ensures openProtocol Honest
      (fun r v => AtRest r.1.2 v) v := by
    by_cases hsys : SystemCall a obj
    · rcases hsys with ⟨rfl, rfl⟩ | ⟨rfl, rfl⟩ | ⟨rfl, rfl⟩
      · refine ⟨Or.inr (Or.inl rfl), fun r _ => ?_⟩
        rcases r with ⟨e | ⟨⟨⟩⟩, evs⟩
        · exact hv
        · exact hv
      · exact ⟨Or.inr (Or.inr (Or.inl rfl)), fun r _ => hv⟩
      · exact ⟨Or.inr (Or.inr (Or.inr rfl)), fun r _ => hv⟩
    · refine (traced_ensures (perform_meets a obj hsys) hv []).mono ?_
      rintro r w' ⟨w, rfl | hleft, htrails⟩
      · exact htrails
      · exact Trails.trans (Or.inr ⟨hleft.after, hleft.view⟩) htrails
  exact Prog.ensures_bind.mpr ((hview.and_free (perform_leads a obj)).mono fun r v h => h)

variable {E : FrameCallbackId → Prop} {s s' : FfiState} {L : ι → Holdings} {x : ι} {c : PortCall}
  {r : c.Resp} {evs : List (Event VmbC)}

theorem firstFailure_singleton (rc : Int32) : firstFailure [rc] = check rc := by
  by_cases hrc : rc = 0
  · subst hrc
    rfl
  · rw [check_of_ne hrc]
    simp [firstFailure, hrc]

/-- A method that reports the answer to its one quiet SDK call is honest. -/
theorem Reports.honest (hr : Reports c evs r) : Honest c (r, evs) := by
  cases c with
  | payloadSize h =>
      rcases evs with - | ⟨⟨c, a⟩, - | ⟨e, evs⟩⟩
      · exact absurd hr id
      · cases c with
        | vmbPayloadSizeGet raw =>
            obtain rfl := hr
            show ((check a.1).map fun _ => a.2).map (fun _ => ()) = firstFailure [a.1]
            rw [firstFailure_singleton]
            rcases check a.1 with e | ⟨⟨⟩⟩ <;> rfl
        | _ => exact absurd hr id
      · cases c <;> exact absurd hr id
  | captureStart h =>
      rcases evs with - | ⟨e, - | ⟨e', evs⟩⟩
      · exact absurd hr id
      · exact hr.trans (firstFailure_singleton _).symm
      · exact absurd hr id
  | runFeatureCommand h name =>
      rcases evs with - | ⟨e, - | ⟨e', evs⟩⟩
      · exact absurd hr id
      · exact hr.trans (firstFailure_singleton _).symm
      · exact absurd hr id
  | announceFrame h size => exact absurd hr id
  | queueFrame h slot cb => exact absurd hr id
  | installFrameCallback f => exact absurd hr id
  | _ => trivial

/-- **While the tables hold what an owner has, it gets honest answers.** -/
theorem Tables.honest (hs : Tables E s L) (hc : mayCall (L x) c ∨ OfSystem c)
    (hstep : Step s c evs r s') : Honest c (r, evs) := by
  cases hstep with
  | quiet c evs r hr hevs => exact hr.honest
  | refused c r hc' hr =>
      rcases hc with hc | rfl | rfl | rfl
      · rcases hs.refuses_cases hc hc' with ⟨id, rfl, -⟩ | ⟨h, path, rfl, -⟩ <;> trivial
      · trivial
      · trivial
      · trivial
  | announceFailed h size raw rc hraw hrc =>
      show Except.error (sdkError rc) = firstFailure [rc]
      rw [firstFailure_singleton, check_of_ne hrc]
  | announced h size raw hraw => rfl
  | queued h slot cb raw f box rc hraw hcb hslot => exact (firstFailure_singleton rc).symm
  | lifecycle c evs r b hc' hevs =>
      rcases hc' with rfl | rfl <;> trivial
  | installedFrame f => rfl
  | _ => trivial

/-! ## Threads over one adapter -/

section Threads

variable [DecidableEq ι] {api : VmbApi τ}

/-- Threads that use one adapter, each with an object of its own. -/
abbrev Cameras (τ ι : Type) := Pool TracedPort (FfiState × τ) ι (Option Object) Record

/-- The call announces the slot. -/
def announcesSlot (slot : FrameSlotId) : Event TracedPort → Bool
  | ⟨.announceFrame _ _, (.ok slot', _)⟩ => slot' = slot
  | _ => false

/-- The call revokes the frames of all cameras. -/
def revokesFrames : PortCall → Bool
  | .frameRevokeAll _ => true
  | _ => false

/-- The thread has announced the slot, and no other thread has revoked since. -/
def Kept (log : List (ι × Event TracedPort)) (t : ι) (slot : FrameSlotId) : Prop :=
  Since (fun e => e.1 = t ∧ announcesSlot slot e.2 = true)
    (fun e => e.1 ≠ t ∧ revokesFrames e.2.call = true) log

instance (log : List (ι × Event TracedPort)) (t : ι) (slot : FrameSlotId) :
    Decidable (Kept log t slot) := by
  unfold Kept
  infer_instance

/-- If the move queues a frame, the slot is kept. -/
def Peaceful (P : Cameras τ ι) (mv : Move ι Action) : Prop :=
  ∀ t h slot cb, mv = .step t → P.Calls t (.queueFrame h slot cb) → Kept P.log t slot

/-- The slot the next step of the thread queues. -/
def queuesNext (P : Cameras τ ι) (t : ι) : Option FrameSlotId :=
  match P.nextCall t with
  | some (.queueFrame _ slot _) => some slot
  | _ => none

omit [DecidableEq ι] in
theorem queuesNext_iff {P : Cameras τ ι} {t : ι} {slot : FrameSlotId} :
    queuesNext P t = some slot ↔ ∃ h cb, P.Calls t (.queueFrame h slot cb) := by
  simp only [← Pool.mem_nextCall_iff, Option.mem_def, queuesNext]
  rcases P.nextCall t with - | c
  · simp
  · cases c <;> simp

instance (P : Cameras τ ι) : ∀ mv, Decidable (Peaceful P mv)
  | .invoke t a => isTrue fun _ _ _ _ hmv => by cases hmv
  | .step t => decidable_of_iff (∀ slot ∈ queuesNext P t, Kept P.log t slot)
      ⟨by rintro h _ handle slot cb ⟨⟩ hc; exact h slot (queuesNext_iff.mpr ⟨handle, cb, hc⟩),
        fun h slot hslot => by
          obtain ⟨handle, cb, hc⟩ := queuesNext_iff.mp hslot
          exact h t handle slot cb rfl hc⟩

/-! ### What is left of the announced frames -/

variable {log : List (ι × Event TracedPort)} {t u : ι} {slot : FrameSlotId}

/-- What a thread can count on: of the frames it is going to queue, those that are kept. -/
def lent (log : List (ι × Event TracedPort)) (t : ι) : Holdings :=
  { Pool.view openProtocol {} log t with
    unqueued := (Pool.view openProtocol {} log t).unqueued.filter fun slot => Kept log t slot }

theorem mem_lent : slot ∈ (lent log t).unqueued ↔
    slot ∈ (Pool.view openProtocol {} log t).unqueued ∧ Kept log t slot := by
  simp [lent]

omit [DecidableEq ι] in
/-- A call of another thread that revokes leaves nothing, and any other leaves what there was. -/
theorem kept_append_other (hu : u ≠ t) {e : Event TracedPort} :
    Kept (log ++ [(t, e)]) u slot ↔ Kept log u slot ∧ revokesFrames e.call = false := by
  simp [Kept, since_append, Ne.symm hu]

omit [DecidableEq ι] in
/-- A thread does not revoke what it has announced itself. -/
theorem kept_append_self {e : Event TracedPort} :
    Kept (log ++ [(t, e)]) t slot ↔ announcesSlot slot e = true ∨ Kept log t slot := by
  simp [Kept, since_append]

/-- A thread that counts on less may make the same calls, if the frame it queues is kept. -/
theorem mayCall_filter {v : Holdings} {c : PortCall} (hc : mayCall v c) {p : FrameSlotId → Bool}
    (hp : ∀ h slot cb, c = .queueFrame h slot cb → p slot = true) :
    mayCall { v with unqueued := v.unqueued.filter p } c := by
  cases c with
  | openCamera id =>
      obtain rfl : v = {} := hc
      rfl
  | installDiscoveryCallback f =>
      obtain rfl : v = {} := hc
      rfl
  | runFeatureCommand h name =>
      refine ⟨hc.1, hc.2.imp (fun hstart => ⟨hstart.1, hstart.2.1, ?_, hstart.2.2.2⟩) id⟩
      rw [hstart.2.2.1]
      rfl
  | queueFrame h slot cb =>
      refine ⟨hc.1, hc.2.1, hc.2.2.1, ?_⟩
      obtain ⟨rest, hrest⟩ := List.head?_eq_some_iff.mp hc.2.2.2
      rw [hrest, List.filter_cons_of_pos (hp h slot cb rfl)]
      rfl
  | _ => exact hc

/-- What a thread is going to queue after an answer. -/
theorem unqueued_next (v : Holdings) (c : PortCall) (r : c.Resp) :
    (afterCall (letGo v c) c r).unqueued = v.unqueuedAfter c r := by
  rw [afterCall_fields]
  cases c <;> rfl

/-- It was going to queue the frame before, or the call has announced it. -/
theorem mem_unqueuedAfter {v : Holdings} {c : PortCall} {r : c.Resp} (evs : List (Event VmbC))
    (hslot : slot ∈ v.unqueuedAfter c r) :
    slot ∈ v.unqueued ∨ announcesSlot slot ⟨c, (r, evs)⟩ = true := by
  cases c with
  | announceFrame h size =>
      rcases r with e | slot'
      · cases hslot
      · rcases List.mem_append.mp hslot with hslot | hslot
        · exact Or.inl hslot
        · exact Or.inr (decide_eq_true (List.mem_singleton.mp hslot).symm)
  | captureStart h =>
      rcases r with e | ⟨⟨⟩⟩
      · cases hslot
      · exact Or.inl hslot
  | queueFrame h slot' cb =>
      rcases r with e | ⟨⟨⟩⟩
      · cases hslot
      · exact Or.inl (List.mem_of_mem_tail hslot)
  | captureEnd h => cases hslot
  | frameRevokeAll h => cases hslot
  | _ => exact Or.inl hslot

/-- After its own call a thread counts on what it counted on, and what it has announced. -/
theorem lent_self {c : PortCall} {r : c.Resp} {evs : List (Event VmbC)}
    (hqueue : ∀ h slot cb, c = .queueFrame h slot cb →
      (Pool.view openProtocol {} log t).unqueued.head? = some slot ∧ Kept log t slot)
    (hslot : slot ∈ (lent (log ++ [(t, ⟨c, (r, evs)⟩)]) t).unqueued) :
    slot ∈ (lent log t).unqueuedAfter c r := by
  obtain ⟨hview, hnow⟩ := mem_lent.mp hslot
  rw [Pool.view_append, Function.update_self, unqueued_next] at hview
  rw [kept_append_self] at hnow
  cases c with
  | announceFrame h size =>
      rcases r with e | slot'
      · cases hview
      rcases List.mem_append.mp hview with hold | hnew
      · rcases hnow with hnow | hnow
        · exact List.mem_append_right _ (List.mem_singleton.mpr (of_decide_eq_true hnow).symm)
        · exact List.mem_append_left _ (mem_lent.mpr ⟨hold, hnow⟩)
      · exact List.mem_append_right _ hnew
  | captureStart h =>
      rcases r with e | ⟨⟨⟩⟩
      · cases hview
      · exact mem_lent.mpr ⟨hview, hnow.resolve_left (by simp [announcesSlot])⟩
  | queueFrame h slot' cb =>
      rcases r with e | ⟨⟨⟩⟩
      · cases hview
      -- the queued frame was the first, and it was kept
      obtain ⟨hfirst, hkept⟩ := hqueue h slot' cb rfl
      obtain ⟨rest, hrest⟩ := List.head?_eq_some_iff.mp hfirst
      have htail : slot ∈ rest := by
        have hview : slot ∈ (Pool.view openProtocol {} log t).unqueued.tail := hview
        rwa [hrest] at hview
      show slot ∈ (lent log t).unqueued.tail
      simp only [lent, hrest]
      rw [List.filter_cons, if_pos (decide_eq_true hkept)]
      exact List.mem_filter.mpr
        ⟨htail, decide_eq_true (hnow.resolve_left (by simp [announcesSlot]))⟩
  | captureEnd h => cases hview
  | frameRevokeAll h => cases hview
  | _ => exact mem_lent.mpr ⟨hview, hnow.resolve_left (by simp [announcesSlot])⟩

/-! ### The table of frames -/

/-- An entry was there before, or is new. -/
theorem Step.frames_cases {s s' : FfiState} {c : PortCall} {evs : List (Event VmbC)} {r : c.Resp}
    (h : Step s c evs r s') (hslot : slot ∈ s'.frames) :
    slot ∈ s.frames ∨ slot = ⟨s.currentId⟩ ∧ s.counter < s'.counter := by
  cases h with
  | announced h size raw hraw =>
      exact (Finmap.mem_insert.mp hslot).symm.imp id fun hnew => ⟨hnew, Nat.lt_succ_self _⟩
  | queued h slot' cb raw f box rc hraw hcb hslot' =>
      rcases Finmap.mem_insert.mp hslot with rfl | hslot
      · exact Or.inl (Finmap.mem_of_lookup_eq_some hslot')
      · exact Or.inl hslot
  | revoked h raw rc hraw => exact absurd hslot Finmap.notMem_empty
  | _ => exact Or.inl hslot

/-- A revocation of a camera that is there clears the table. -/
theorem Step.frames_revoked {s s' : FfiState} {h : CameraHandle} {evs : List (Event VmbC)} {u : Unit}
    (hstep : Step s (.frameRevokeAll h) evs u s') (hh : s.cameras.lookup h ≠ none) :
    slot ∉ s'.frames := by
  cases hstep with
  | lifecycle c evs r b hc hevs => simp at hc
  | quiet c evs r hr hevs => exact absurd hr id
  | refused c r hc hr => exact absurd hc hh
  | revoked h raw rc hraw => exact Finmap.notMem_empty

/-- An announced slot has the next identifier. -/
theorem Step.slot_announced {s s' : FfiState} {c : PortCall} {evs : List (Event VmbC)} {r : c.Resp}
    (hstep : Step s c evs r s') (hnew : announcesSlot slot ⟨c, (r, evs)⟩ = true) :
    slot = ⟨s.currentId⟩ ∧ s.counter < s'.counter := by
  cases hstep with
  | announced h size raw hraw => exact ⟨(of_decide_eq_true hnew).symm, Nat.lt_succ_self _⟩
  | quiet c evs r hr hevs =>
      cases c with
      | announceFrame h size => exact absurd hr id
      | _ => cases hnew
  | refused c r hc hr =>
      cases c with
      | announceFrame h size =>
          obtain ⟨context, rfl⟩ := hr
          cases hnew
      | _ => cases hnew
  | lifecycle c evs r b hc hevs => rcases hc with rfl | rfl <;> cases hnew
  | _ => cases hnew

/-- The adapter refuses to queue a frame it does not have, without a call of the SDK. -/
theorem Step.not_honest {s s' : FfiState} {h : CameraHandle} {cb : FrameCallbackId}
    {evs : List (Event VmbC)} {r : Result Unit} (hstep : Step s (.queueFrame h slot cb) evs r s')
    (hslot : slot ∉ s.frames) : ¬ Honest (.queueFrame h slot cb) (r, evs) := by
  cases hstep with
  | lifecycle c evs r b hc hevs => simp at hc
  | quiet c evs r hr hevs => exact absurd hr id
  | refused c r hc hr =>
      obtain ⟨context, rfl⟩ := hr
      intro hhonest
      cases hhonest
  | queued h slot cb raw f box rc hraw hcb hslot' =>
      exact absurd (Finmap.mem_of_lookup_eq_some hslot') hslot

/-! ### What the threads count on is there -/

/-- The adapter has what the threads can count on, and of the other frames they are going to queue it has
none. -/
structure Lending (s : FfiState) (log : List (ι × Event TracedPort)) : Prop where
  tables : Tables (fun _ => False) s (lent log)
  lost : ∀ t, ∀ slot ∈ (Pool.view openProtocol {} log t).unqueued, ¬ Kept log t slot →
    slot ∉ s.frames
  below : ∀ t, ∀ slot ∈ (Pool.view openProtocol {} log t).unqueued, slot.id.toNat < s.counter

/-- What the threads count on while one of them makes its call: a callback that is left behind is
forgotten, and a revocation takes from the others what they were going to queue. -/
def during (log : List (ι × Event TracedPort)) (t : ι) (c : PortCall) (u : ι) : Holdings :=
  if u = t then letGo (lent log t) c
  else if revokesFrames c then { lent log u with unqueued := [] }
  else lent log u

theorem during_self (log : List (ι × Event TracedPort)) (t : ι) (c : PortCall) :
    during log t c t = letGo (lent log t) c := if_pos rfl

section Call

variable {s s' : FfiState} {c : PortCall} {r : c.Resp} {evs : List (Event VmbC)}

theorem Lending.during (h : Lending s log) (t : ι) (c : PortCall) :
    Tables (fun _ => False) s (during log t c) := by
  have hgone : Tables (fun _ => False) s (Function.update (lent log) t (letGo (lent log t) c)) := by
    have hforget := h.tables.abandon (x := t) fun _ _ _ => id
    cases c with
    | openCamera id => exact hforget
    | closeCamera h => exact hforget
    | installFrameCallback f => exact hforget
    | installDiscoveryCallback f => exact hforget
    | _ =>
        rw [show letGo (lent log t) _ = lent log t from rfl, Function.update_eq_self]
        exact h.tables
  refine hgone.fewer (fun u => ?_) fun u slot hslot => ?_ <;> by_cases hu : u = t
  · subst hu
    rw [during_self, Function.update_self]
  · rw [Function.update_of_ne hu, Ffi.during, if_neg hu]
    split <;> rfl
  · subst hu
    rw [during_self] at hslot
    rw [Function.update_self]
    exact hslot
  · rw [Function.update_of_ne hu]
    rw [Ffi.during, if_neg hu] at hslot
    split at hslot
    · cases hslot
    · exact hslot

/-- Only what is still to be queued depends on what was to be queued. -/
theorem afterCall_unqueued (v : Holdings) (l l' : List FrameSlotId) (c : PortCall) (r : c.Resp) :
    { afterCall (letGo v c) c r with unqueued := l' } =
      { afterCall (letGo { v with unqueued := l } c) c r with unqueued := l' } := by
  rw [afterCall_fields, afterCall_fields]
  cases c <;> rfl

/-- After the call the threads count on no more than that. -/
theorem Tables.lent (h : Tables (fun _ => False) s
      (Function.update (during log t c) t (afterCall (letGo (lent log t) c) c r)))
    (hqueue : ∀ h slot cb, c = .queueFrame h slot cb →
      (Pool.view openProtocol {} log t).unqueued.head? = some slot ∧ Kept log t slot) :
    Tables (fun _ => False) s (lent (log ++ [(t, ⟨c, (r, evs)⟩)])) := by
  refine h.fewer (fun u => ?_) fun u slot hslot => ?_ <;> by_cases hu : u = t
  · subst hu
    rw [Function.update_self, Ffi.lent, Pool.view_append, Function.update_self]
    exact afterCall_unqueued _ _ _ c r
  · rw [Function.update_of_ne hu, Ffi.lent, Pool.view_append, Function.update_of_ne hu, Ffi.during,
      if_neg hu]
    split <;> rfl
  · subst hu
    rw [Function.update_self, unqueued_next]
    exact lent_self hqueue hslot
  · rw [Function.update_of_ne hu]
    obtain ⟨hview, hnow⟩ := mem_lent.mp hslot
    rw [Pool.view_append, Function.update_of_ne hu] at hview
    obtain ⟨hkept, hquiet⟩ := (kept_append_other hu).mp hnow
    rw [Ffi.during, if_neg hu, hquiet]
    exact mem_lent.mpr ⟨hview, hkept⟩

theorem mayCall_lent (hc : mayCall (letGo (Pool.view openProtocol {} log t) c) c)
    (hkept : ∀ h slot cb, c = .queueFrame h slot cb → Kept log t slot) :
    mayCall (letGo (lent log t) c) c := by
  have hletGo : ∀ (v : Holdings) (p : FrameSlotId → Bool),
      letGo { v with unqueued := v.unqueued.filter p } c =
        { letGo v c with unqueued := (letGo v c).unqueued.filter p } := by
    intro v p
    cases c <;> rfl
  rw [lent, hletGo]
  exact mayCall_filter hc fun h slot cb heq => decide_eq_true (hkept h slot cb heq)

/-- A call of a `VmbSystem` is not about what an owner holds. -/
theorem Lending.system (h : Lending s log) (hc : OfSystem c) (hstep : Step s c evs r s') :
    Tables (fun _ => False) s'
      (Function.update (Ffi.during log t c) t (afterCall (letGo (lent log t) c) c r)) := by
  obtain ⟨⟨b, rfl⟩, -⟩ := hstep.system hc
  have hsame : afterCall (letGo (lent log t) c) c r = letGo (lent log t) c := by
    rcases hc with rfl | rfl | rfl <;> rfl
  rw [hsame, ← during_self, Function.update_eq_self]
  exact { h.during t c with }

/-- A revocation of an owner clears the table. -/
theorem Lending.revoked (h : Lending s log)
    (hc : mayCall (letGo (Pool.view openProtocol {} log t) c) c ∨ OfSystem c)
    (hrevokes : revokesFrames c = true) (hstep : Step s c evs r s') : slot ∉ s'.frames := by
  cases c with
  | frameRevokeAll handle =>
      rcases hc with hc | hc
      · obtain ⟨raw, hraw⟩ := h.tables.camera_mem (x := t) hc.1
        exact hstep.frames_revoked (by simp [hraw])
      · rcases hc with hc | hc | hc <;> cases hc
  | _ => cases hrevokes

/-- **A call of an owner keeps the lending.** The frame it queues must be kept. -/
theorem Lending.call (h : Lending s log)
    (hc : mayCall (letGo (Pool.view openProtocol {} log t) c) c ∨ OfSystem c)
    (hkept : ∀ handle slot cb, c = .queueFrame handle slot cb → Kept log t slot)
    (hstep : Step s c evs r s') (hids : s'.counter ≤ 2 ^ 64) :
    Lending s' (log ++ [(t, ⟨c, (r, evs)⟩)]) := by
  have hcounter := hstep.counter_le
  -- a slot that some thread is going to queue is not issued again
  have hold : ∀ u, ∀ slot ∈ (Pool.view openProtocol {} log u).unqueued, slot ∈ s'.frames →
      slot ∈ s.frames := by
    intro u slot hslot hin
    rcases hstep.frames_cases hin with hin | ⟨rfl, hlt⟩
    · exact hin
    · have hbelow := h.below u _ hslot
      rw [FfiState.currentId, UInt64.toNat_ofNat_of_lt' (Nat.lt_of_lt_of_le hlt hids)] at hbelow
      exact absurd hbelow (Nat.lt_irrefl _)
  refine ⟨?_, fun u slot hslot hnot hin => ?_, fun u slot hslot => ?_⟩
  · refine Tables.lent ?_ ?_
    · rcases hc with hc | hc
      · rw [← during_self]
        refine (h.during t c).step ?_ hstep hids ?_
        · rw [during_self]
          exact mayCall_lent hc hkept
        · rintro handle rfl u hu
          rw [Ffi.during, if_neg hu]
          rfl
      · exact h.system hc hstep
    · rintro handle slot cb rfl
      refine ⟨?_, hkept handle slot cb rfl⟩
      rcases hc with hc | hc
      · exact hc.2.2.2
      · rcases hc with hc | hc | hc <;> cases hc
  · rw [Pool.view_append] at hslot
    by_cases hu : u = t
    · subst hu
      rw [Function.update_self, unqueued_next] at hslot
      rw [kept_append_self, not_or] at hnot
      have hview := (mem_unqueuedAfter evs hslot).resolve_right hnot.1
      exact h.lost u slot hview hnot.2 (hold u slot hview hin)
    · rw [Function.update_of_ne hu] at hslot
      rw [kept_append_other hu] at hnot
      by_cases hnow : Kept log u slot
      · refine h.revoked hc ?_ hstep hin
        exact Bool.eq_true_of_not_eq_false fun hquiet => hnot ⟨hnow, hquiet⟩
      · exact h.lost u slot hslot hnow (hold u slot hslot hin)
  · rw [Pool.view_append] at hslot
    by_cases hu : u = t
    · subst hu
      rw [Function.update_self, unqueued_next] at hslot
      rcases mem_unqueuedAfter evs hslot with hview | hnew
      · exact Nat.lt_of_lt_of_le (h.below u slot hview) hcounter
      · obtain ⟨rfl, hlt⟩ := hstep.slot_announced hnew
        rw [FfiState.currentId, UInt64.toNat_ofNat_of_lt' (Nat.lt_of_lt_of_le hlt hids)]
        exact hlt
    · rw [Function.update_of_ne hu] at hslot
      exact Nat.lt_of_lt_of_le (h.below u slot hslot) hcounter

end Call

/-! ### Runs -/

/-- Every thread is inside its protocol, the adapter has what the threads count on, and every answer was
honest. -/
structure Steady (P : Cameras τ ι) : Prop where
  sound : Pool.Sound openProtocol {} Honest AtRest (fun r => r.Allocates ↔ Decided r) P
  lending : Lending P.shared.1 P.log
  honest : ∀ e ∈ P.log, Honest e.2.call e.2.resp

theorem steady_init (t : τ) : Steady (Pool.init (.new, t) none : Cameras τ ι) where
  sound := Pool.sound_init (Or.inl rfl)
  lending :=
    { tables := tables_new fun _ => rfl
      lost := fun _ _ hslot => absurd hslot List.not_mem_nil
      below := fun _ _ hslot => absurd hslot List.not_mem_nil }
  honest _ he := absurd he List.not_mem_nil

theorem tracedRuntime_step (api : VmbApi τ) (s : FfiState × τ) (c : PortCall) :
    Step s.1 c (tracedRuntime api s c).1.2 (tracedRuntime api s c).1.1
      (tracedRuntime api s c).2.1 := by
  obtain ⟨evs, hruns, hlog, -⟩ := Prog.run_logged_runs api (s.1.dispatch c) s.2 []
  have hevs : (tracedRuntime api s c).1.2 = evs := hlog
  rw [hevs]
  exact FfiState.dispatch_step hruns

theorem counter_move_le (P : Cameras τ ι) (mv : Move ι Action) :
    P.shared.1.counter ≤ (P.move (tracedRuntime api) performTraced mv).shared.1.counter := by
  obtain ⟨hshared, -⟩ | ⟨t, c, -, -, hshared, -⟩ :=
    Pool.move_cases (tracedRuntime api) performTraced P mv
  · rw [hshared]
  · rw [hshared]
    exact (tracedRuntime_step api P.shared c).counter_le

theorem Steady.move {P : Cameras τ ι} (h : Steady P) {mv : Move ι Action} (hok : Peaceful P mv)
    (hids : (P.move (tracedRuntime api) performTraced mv).shared.1.counter ≤ 2 ^ 64) :
    Steady (P.move (tracedRuntime api) performTraced mv) := by
  have hkept : ∀ t c, mv = .step t → P.Calls t c → ∀ handle slot cb,
      c = .queueFrame handle slot cb → Kept P.log t slot := by
    rintro t c hmv hcalls handle slot cb rfl
    exact hok t handle slot cb hmv hcalls
  have hhonest : ∀ t c, mv = .step t → P.Calls t c → Honest c (tracedRuntime api P.shared c).1 := by
    intro t c hmv hcalls
    refine (h.lending.during t c).honest (x := t) ?_ (tracedRuntime_step api P.shared c)
    rw [during_self]
    exact (h.sound.pre hcalls).imp (fun hc => mayCall_lent hc (hkept t c hmv hcalls)) id
  refine ⟨h.sound.move mv (fun t a obj v _ hv => performTraced_ensures a hv) hhonest, ?_, ?_⟩
  · obtain ⟨hshared, hlog⟩ | ⟨t, c, hmv, hcalls, hshared, hlog⟩ :=
      Pool.move_cases (tracedRuntime api) performTraced P mv
    · rw [hshared, hlog]
      exact h.lending
    · rw [hshared] at hids ⊢
      rw [hlog]
      exact h.lending.call (h.sound.pre hcalls) (hkept t c hmv hcalls)
        (tracedRuntime_step api P.shared c) hids
  · obtain ⟨-, hlog⟩ | ⟨t, c, hmv, hcalls, -, hlog⟩ :=
      Pool.move_cases (tracedRuntime api) performTraced P mv
    · rw [hlog]
      exact h.honest
    · rw [hlog]
      intro e he
      rcases List.mem_append.mp he with he | he
      · exact h.honest e he
      · rw [List.mem_singleton.mp he]
        exact hhonest t c hmv hcalls

/-- A frame that another thread has revoked cannot be queued. -/
theorem Steady.not_honest (api : VmbApi τ) {P : Cameras τ ι} (h : Steady P) {t : ι} {handle : CameraHandle}
    {slot : FrameSlotId} {cb : FrameCallbackId} (hcalls : P.Calls t (.queueFrame handle slot cb))
    (hnot : ¬ Kept P.log t slot) :
    ¬ Honest (.queueFrame handle slot cb) (tracedRuntime api P.shared (.queueFrame handle slot cb)).1 := by
  have hqueue : (Pool.view openProtocol {} P.log t).unqueued.head? = some slot := by
    rcases h.sound.pre hcalls with hc | hc
    · exact hc.2.2.2
    · rcases hc with hc | hc | hc <;> cases hc
  have hlost := h.lending.lost t slot (List.mem_of_mem_head? hqueue) hnot
  exact (tracedRuntime_step api P.shared (.queueFrame handle slot cb)).not_honest hlost

theorem counter_run_le (P : Cameras τ ι) {before moves : List (Move ι Action)}
    (hpre : before <+: moves) :
    (P.run (tracedRuntime api) performTraced before).shared.1.counter ≤
      (P.run (tracedRuntime api) performTraced moves).shared.1.counter := by
  obtain ⟨after, rfl⟩ := hpre
  induction after using List.reverseRecOn with
  | nil => rw [List.append_nil]
  | append_singleton after mv ih =>
      rw [← List.append_assoc, Pool.run_append]
      exact Nat.le_trans ih (counter_move_le _ mv)

theorem steady_run {t₀ : τ} {moves : List (Move ι Action)}
    (hok : (Pool.init (.new, t₀) none).Along (tracedRuntime api) performTraced Peaceful moves)
    (hids : ((Pool.init (.new, t₀) none : Cameras τ ι).run (tracedRuntime api) performTraced
      moves).shared.1.counter ≤ 2 ^ 64) :
    Steady ((Pool.init (.new, t₀) none : Cameras τ ι).run (tracedRuntime api) performTraced moves) := by
  refine Pool.run_invariant Steady
    (fun P mv => Peaceful P mv ∧
      (P.move (tracedRuntime api) performTraced mv).shared.1.counter ≤ 2 ^ 64)
    (fun P mv hP hmv => hP.move hmv.1 hmv.2) (Pool.init (.new, t₀) none) moves (steady_init t₀)
    fun before mv hpre => ⟨hok before mv hpre, ?_⟩
  rw [← Pool.run_append]
  exact Nat.le_trans (counter_run_le _ hpre) hids

/-- If every answer was honest, every frame that was queued was kept. -/
theorem peaceful_of_honest {t₀ : τ} {moves : List (Move ι Action)}
    (hids : ((Pool.init (.new, t₀) none : Cameras τ ι).run (tracedRuntime api) performTraced
      moves).shared.1.counter ≤ 2 ^ 64)
    (hhonest : ∀ e ∈ ((Pool.init (.new, t₀) none : Cameras τ ι).run (tracedRuntime api) performTraced
      moves).log, Honest e.2.call e.2.resp) :
    (Pool.init (.new, t₀) none).Along (tracedRuntime api) performTraced Peaceful moves := by
  induction moves using List.reverseRecOn with
  | nil => exact fun before mv hpre => by simp at hpre
  | append_singleton moves mv ih =>
      have hpre : moves <+: moves ++ [mv] := List.prefix_append _ _
      have hids' := Nat.le_trans (counter_run_le (Pool.init (.new, t₀) none) hpre) hids
      have hbefore := ih hids' fun e he => hhonest e (by
        obtain ⟨new, hnew⟩ := Pool.log_move (tracedRuntime api) performTraced
          ((Pool.init (.new, t₀) none).run (tracedRuntime api) performTraced moves) mv
        rw [Pool.run_append, hnew]
        exact List.mem_append_left _ he)
      intro before mv' hpre'
      rcases List.prefix_concat_iff.mp hpre' with heq | hpre'
      · obtain ⟨rfl, hmv⟩ := List.append_inj' heq rfl
        obtain rfl : mv' = mv := by simpa using hmv
        rintro t handle slot cb rfl hcalls
        by_contra hnot
        refine (steady_run hbefore hids').not_honest api hcalls hnot ?_
        refine hhonest (t, ⟨.queueFrame handle slot cb, _⟩) ?_
        rw [Pool.run_append, Pool.log_of_calls hcalls]
        exact List.mem_append_right _ List.mem_cons_self
      · exact hbefore before mv' hpre'

/-- **A camera's outcomes are decided by its own SDK calls**, and no port call of a capture fails but with
the return code of its own SDK call, exactly if every frame that is queued was announced after the last
`frame_revoke_all` of another thread, and no start panics in the allocation of its slot vector. So it is for
every SDK and every interleaving that issues fewer than `2^64` identifiers. A start that panics concerns
no other operation. -/
theorem outcomes_decided (api : VmbApi τ) (t₀ : τ) (moves : List (Move ι Action))
    (hids : ((Pool.init (.new, t₀) none : Cameras τ ι).run (tracedRuntime api) performTraced
      moves).shared.1.counter ≤ 2 ^ 64) :
    (((∀ t, ∀ r ∈ (((Pool.init (.new, t₀) none : Cameras τ ι).run (tracedRuntime api) performTraced
          moves).threads t).results, Decided r) ∧
        ∀ e ∈ ((Pool.init (.new, t₀) none : Cameras τ ι).run (tracedRuntime api) performTraced
          moves).log, Honest e.2.call e.2.resp) ↔
      (Pool.init (.new, t₀) none).Along (tracedRuntime api) performTraced Peaceful moves ∧
        ∀ t, ∀ r ∈ (((Pool.init (.new, t₀) none : Cameras τ ι).run (tracedRuntime api) performTraced
          moves).threads t).results, r.Allocates) ∧
    ((Pool.init (.new, t₀) none).Along (tracedRuntime api) performTraced Peaceful moves →
      (∀ t, ∀ r ∈ (((Pool.init (.new, t₀) none : Cameras τ ι).run (tracedRuntime api) performTraced
          moves).threads t).results, (r.Allocates ↔ Decided r)) ∧
        ∀ e ∈ ((Pool.init (.new, t₀) none : Cameras τ ι).run (tracedRuntime api) performTraced
          moves).log, Honest e.2.call e.2.resp) := by
  refine ⟨⟨?_, ?_⟩, fun hok => ?_⟩
  · rintro ⟨hdecided, hhonest⟩
    have hok := peaceful_of_honest hids hhonest
    exact ⟨hok, fun t r hr => ((steady_run hok hids).sound.results t r hr).mpr (hdecided t r hr)⟩
  · rintro ⟨hok, halloc⟩
    have hsteady := steady_run hok hids
    exact ⟨fun t r hr => (hsteady.sound.results t r hr).mp (halloc t r hr), hsteady.honest⟩
  · have hsteady := steady_run hok hids
    exact ⟨hsteady.sound.results, hsteady.honest⟩

end Threads

/-! ## Two cameras -/

/-- Two cameras are opened and started step by step; one stops when the other has started. Then it asks for
more buffers than a slot vector can hold, while the other stops. -/
def stopAfterStart : List (Move Bool Action) :=
  [.invoke false (.openCamera "cam-a"), .invoke true (.openCamera "cam-b"), .step false, .step true,
    .step true, .step false, .invoke false (.startCapture 1 ⟨1⟩), .invoke true (.startCapture 1 ⟨2⟩)] ++
  (List.replicate 7 [.step false, .step true]).flatten ++
  .invoke false .stopCapture :: List.replicate 6 (.step false) ++
  [.invoke false (.startCapture (2 ^ 60) ⟨3⟩), .invoke true .stopCapture] ++
  (List.replicate 6 [.step false, .step true]).flatten

theorem outcomes_decided_stopAfterStart :
    (∀ t, ∀ r ∈ (((Pool.init (.new, 1) none : Cameras Nat Bool).run (tracedRuntime mockApi)
        performTraced stopAfterStart).threads t).results, (r.Allocates ↔ Decided r)) ∧
      ∀ e ∈ ((Pool.init (.new, 1) none : Cameras Nat Bool).run (tracedRuntime mockApi) performTraced
        stopAfterStart).log, Honest e.2.call e.2.resp :=
  (outcomes_decided mockApi 1 stopAfterStart (by decide +kernel)).2 (by decide +kernel)

/-- One camera captures; it stops when the other has announced a frame and not yet queued it. -/
def stopDuringStart : List (Move Bool Action) :=
  [.invoke false (.openCamera "cam-a"), .step false, .step false,
    .invoke false (.startCapture 1 ⟨1⟩)] ++ List.replicate 7 (.step false) ++
  [.invoke true (.openCamera "cam-b"), .step true, .step true, .invoke true (.startCapture 1 ⟨2⟩),
    .step true, .step true, .step true] ++
  .invoke false .stopCapture :: List.replicate 6 (.step false) ++ List.replicate 7 (.step true)

/-- Every SDK call succeeds, and the second start fails. -/
theorem not_decided_stopDuringStart :
    ¬ ∀ t, ∀ r ∈ (((Pool.init (.new, 1) none : Cameras Nat Bool).run (tracedRuntime mockApi)
        performTraced stopDuringStart).threads t).results, Decided r := by
  intro h
  have hfailed := (h true ⟨.startCapture 1 ⟨2⟩, some (.camera ⟨⟨4, by decide⟩, "cam-b", none⟩ ⟨0⟩),
    [0, 0, 0, 0, 0, 0], .ofResult (.error (.invalidString "unknown frame slot id") : Result Unit)⟩
    (by decide +kernel)).succeeded 1 ⟨2⟩ _ _ rfl rfl rfl (by simp)
  exact absurd hfailed (by decide)

end Vmb.Ffi

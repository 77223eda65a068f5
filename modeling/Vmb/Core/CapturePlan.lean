/-
# Vmb.Core.CapturePlan -- the calls of a capture start

`start_capture` follows a plan: query the payload size, install the closure, announce the frames,
start, queue the frames in announce order, acquire. The plan of `n` buffers depends on what the
runtime answers (the payload size, the callback id, the slots), so it is a list of calls with their
answers. A start that is not refused either carries out the whole plan, or stops at the first call
that fails and unwinds everything once: capture end, queue flush, revocation, uninstallation.
-/
import Vmb.Core.Trace

namespace Vmb.Core

open Vmb.Lib

/-! ## The plan -/

/-- A call with its answer. -/
abbrev portEvent (c : PortCall) (r : c.Resp) : Event Port := ⟨c, r⟩

/-- The frames are announced. -/
def announcePlan (h : CameraHandle) (payload : UInt32) (slots : List FrameSlotId) :
    List (Event Port) :=
  slots.map fun slot => portEvent (.announceFrame h payload) (.ok slot)

/-- The frames are queued. -/
def queuePlan (h : CameraHandle) (cb : FrameCallbackId) (slots : List FrameSlotId) :
    List (Event Port) :=
  slots.map fun slot => portEvent (.queueFrame h slot cb) (.ok ())

/-- The plan of a capture start in which no call fails. -/
def capturePlan (h : CameraHandle) (f : FrameCallback) (payload : UInt32) (cb : FrameCallbackId)
    (slots : List FrameSlotId) : List (Event Port) :=
  portEvent (.payloadSize h) (.ok payload) :: portEvent (.installFrameCallback f) cb ::
    (announcePlan h payload slots ++ portEvent (.captureStart h) (.ok ()) ::
      (queuePlan h cb slots ++ [portEvent (.runFeatureCommand h featureAcquisitionStart) (.ok ())]))

/-- The unwind of a start that failed, and of a capture. -/
def unwindCalls (h : CameraHandle) (cb : FrameCallbackId) : List PortCall :=
  [.captureEnd h, .captureQueueFlush h, .frameRevokeAll h, .uninstallFrameCallback cb]

/-- The trace `t` carries out a plan until a call of it fails with `e`: the calls before it go as
planned. -/
def FailsIn (plan t : List (Event Port)) (e : VmbError) : Prop :=
  ∃ done x rest r, plan = done ++ x :: rest ∧ t = done ++ [⟨x.call, r⟩] ∧ Fails e x.call r

namespace Camera

/-- The start carries out the whole plan, and the session holds the callback and the `n` slots. -/
def Completes (cam : Camera) (n : Nat) (f : FrameCallback) (t : List (Event Port))
    (out : Exit (Result Unit) × Camera) : Prop :=
  ∃ payload cb slots, slots.length = n ∧ t = capturePlan cam.handle f payload cb slots ∧
    out = (.returned (.ok ()), { cam with session := some ⟨cb, slots⟩ })

/-- The start carries out the plan until a call fails, unwinds once unless that was the first call,
and returns the error of that call with the camera unchanged. -/
def Aborts (cam : Camera) (n : Nat) (f : FrameCallback) (t : List (Event Port))
    (out : Exit (Result Unit) × Camera) : Prop :=
  ∃ payload cb slots tried e unwinding, slots.length = n ∧
    FailsIn (capturePlan cam.handle f payload cb slots) tried e ∧ t = tried ++ unwinding ∧
    unwinding.map Event.call = (if tried.length = 1 then [] else unwindCalls cam.handle cb) ∧
    out = (.returned (.error e), cam)

end Camera

/-! ## Plans and failures -/

/-- A failure in the first part of a plan. -/
theorem FailsIn.append_right {plan t : List (Event Port)} {e : VmbError} (h : FailsIn plan t e)
    (plan' : List (Event Port)) : FailsIn (plan ++ plan') t e := by
  obtain ⟨done, x, rest, r, rfl, rfl, hr⟩ := h
  exact ⟨done, x, rest ++ plan', r, by simp, rfl, hr⟩

/-- A failure in the second part of a plan. -/
theorem FailsIn.append_left {plan t : List (Event Port)} {e : VmbError} (h : FailsIn plan t e)
    (plan' : List (Event Port)) : FailsIn (plan' ++ plan) (plan' ++ t) e := by
  obtain ⟨done, x, rest, r, rfl, rfl, hr⟩ := h
  exact ⟨plan' ++ done, x, rest, r, by simp, by simp, hr⟩

/-- A failure of the first call of a plan. -/
theorem failsIn_head (x : Event Port) (plan : List (Event Port)) {r : x.call.Resp} {e : VmbError}
    (h : Fails e x.call r) : FailsIn (x :: plan) [⟨x.call, r⟩] e :=
  ⟨[], x, plan, r, rfl, rfl, h⟩

/-! ## The loops -/

namespace Camera

variable {cam : Camera} {f : FrameCallback} {n : Nat} {t : List (Event Port)}

/-- The announce loop announces `n` frames, or stops at the first that is refused. The slots of the
frames that were not announced do not matter. -/
theorem announceFrames_runs {h : CameraHandle} {payload : UInt32} {acc : List FrameSlotId}
    {r : Result (List FrameSlotId)} (hruns : (announceFrames h payload n acc).Runs t r) :
    ∃ slots, slots.length = n ∧
      (t = announcePlan h payload slots ∧ r = .ok (acc ++ slots) ∨
        ∃ e, FailsIn (announcePlan h payload slots) t e ∧ r = .error e) := by
  induction n generalizing acc t with
  | zero =>
      obtain ⟨rfl, rfl⟩ := hruns
      exact ⟨[], rfl, Or.inl ⟨rfl, by simp⟩⟩
  | succ n ih =>
      obtain ⟨answer, t', rfl, hruns⟩ := hruns
      rcases answer with e | slot
      -- the slots the plan would have had are made up: the run does not get to them
      · obtain ⟨rfl, rfl⟩ := hruns
        refine ⟨⟨0⟩ :: List.replicate n ⟨0⟩, by simp, Or.inr ⟨e, ?_, rfl⟩⟩
        exact failsIn_head (portEvent (.announceFrame h payload) (.ok ⟨0⟩)) _ rfl
      · obtain ⟨slots, hlength, hcase⟩ := ih hruns
        refine ⟨slot :: slots, by simp [hlength], ?_⟩
        rcases hcase with ⟨rfl, rfl⟩ | ⟨e, hfails, rfl⟩
        · exact Or.inl ⟨rfl, by simp⟩
        · exact Or.inr ⟨e, hfails.append_left [portEvent (.announceFrame h payload) (.ok slot)], rfl⟩

/-- The queue loop queues the frames, or stops at the first that is refused. -/
theorem queueFrames_runs {h : CameraHandle} {cb : FrameCallbackId} {slots : List FrameSlotId}
    {r : Result Unit} (hruns : (queueFrames h cb slots).Runs t r) :
    t = queuePlan h cb slots ∧ r = .ok () ∨
      ∃ e, FailsIn (queuePlan h cb slots) t e ∧ r = .error e := by
  induction slots generalizing t with
  | nil =>
      obtain ⟨rfl, rfl⟩ := hruns
      exact Or.inl ⟨rfl, rfl⟩
  | cons slot slots ih =>
      obtain ⟨answer, t', rfl, hruns⟩ := hruns
      rcases answer with e | ⟨⟨⟩⟩
      · obtain ⟨rfl, rfl⟩ := hruns
        exact Or.inr ⟨e, failsIn_head (portEvent (.queueFrame h slot cb) (.ok ())) _ rfl, rfl⟩
      · rcases ih hruns with ⟨rfl, rfl⟩ | ⟨e, hfails, rfl⟩
        · exact Or.inl ⟨rfl, rfl⟩
        · exact Or.inr ⟨e, hfails.append_left [portEvent (.queueFrame h slot cb) (.ok ())], rfl⟩

/-! ## The start -/

/-- The plan from the first announcement on. -/
def primePlan (h : CameraHandle) (payload : UInt32) (cb : FrameCallbackId) (slots : List FrameSlotId) :
    List (Event Port) :=
  announcePlan h payload slots ++ portEvent (.captureStart h) (.ok ()) ::
    (queuePlan h cb slots ++ [portEvent (.runFeatureCommand h featureAcquisitionStart) (.ok ())])

/-- The closure of `start_capture` carries out its part of the plan, or stops where it fails. -/
theorem primeCapture_runs {h : CameraHandle} {payload : UInt32} {cb : FrameCallbackId}
    {r : Result (List FrameSlotId)} (hruns : (primeCapture h payload cb n []).Runs t r) :
    ∃ slots, slots.length = n ∧
      (t = primePlan h payload cb slots ∧ r = .ok slots ∨
        ∃ e, FailsIn (primePlan h payload cb slots) t e ∧ r = .error e) := by
  obtain ⟨t₁, t₂, announced, rfl, hannounce, hstart⟩ := Prog.runs_bind.mp hruns
  obtain ⟨slots, hlength, hcase⟩ := announceFrames_runs hannounce
  refine ⟨slots, hlength, ?_⟩
  rcases hcase with ⟨rfl, rfl⟩ | ⟨e, hfails, rfl⟩
  · rw [List.nil_append] at hstart
    obtain ⟨started, t₃, rfl, hqueue⟩ := runs_port_bind.mp hstart
    rcases started with e | ⟨⟨⟩⟩
    · obtain ⟨rfl, rfl⟩ := hqueue
      refine Or.inr ⟨e, ?_, rfl⟩
      exact (failsIn_head (portEvent (.captureStart h) (.ok ())) _ rfl).append_left _
    · obtain ⟨t₄, t₅, queued, rfl, hqueued, hacquire⟩ := Prog.runs_bind.mp hqueue
      rcases queueFrames_runs hqueued with ⟨rfl, rfl⟩ | ⟨e, hfails, rfl⟩
      · obtain ⟨acquired, t₆, rfl, hend⟩ := runs_port_bind.mp hacquire
        rcases acquired with e | ⟨⟨⟩⟩
        · obtain ⟨rfl, rfl⟩ := hend
          have hfails := failsIn_head (e := e) (r := .error e)
            (portEvent (.runFeatureCommand h featureAcquisitionStart) (.ok ())) [] rfl
          have hafter := hfails.append_left (queuePlan h cb slots)
          have hstarted := hafter.append_left [portEvent (.captureStart h) (.ok ())]
          exact Or.inr ⟨e, hstarted.append_left (announcePlan h payload slots), rfl⟩
        · obtain ⟨rfl, rfl⟩ := hend
          exact Or.inl ⟨rfl, rfl⟩
      · obtain ⟨rfl, rfl⟩ := hacquire
        have hbefore := hfails.append_right
          [portEvent (.runFeatureCommand h featureAcquisitionStart) (.ok ())]
        have hstarted := hbefore.append_left [portEvent (.captureStart h) (.ok ())]
        rw [List.append_nil]
        exact Or.inr ⟨e, hstarted.append_left (announcePlan h payload slots), rfl⟩
  · obtain ⟨rfl, rfl⟩ := hstart
    rw [List.append_nil]
    exact Or.inr ⟨e, hfails.append_right _, rfl⟩

/-- The unwind makes its four calls. -/
theorem unwind_runs {h : CameraHandle} {cb : FrameCallbackId} {u : Unit}
    (hruns : (unwind h cb).Runs t u) : t.map Event.call = unwindCalls h cb := by
  obtain ⟨r₁, t₁, rfl, r₂, t₂, rfl, r₃, t₃, rfl, r₄, t₄, rfl, rfl, -⟩ := hruns
  rfl

/-- A start on a camera without a session carries out the plan, or aborts. -/
theorem startCapture_runs (hs : cam.session = none) (hn : Allocatable n)
    {out : Exit (Result Unit) × Camera} (hruns : (cam.startCapture n f).Runs t out) :
    Completes cam n f t out ∨ Aborts cam n f t out := by
  unfold startCapture at hruns
  rw [hs] at hruns
  obtain ⟨answer, t₁, rfl, hinstall⟩ := runs_port_bind.mp hruns
  rcases answer with e | payload
  · obtain ⟨rfl, rfl⟩ := hinstall
    refine Or.inr ⟨0, ⟨0⟩, List.replicate n ⟨0⟩, _, e, [], by simp, ?_, (List.append_nil _).symm, rfl,
      rfl⟩
    exact failsIn_head (portEvent (.payloadSize cam.handle) (.ok 0)) _ rfl
  · obtain ⟨cb, t₂, rfl, hprime⟩ := runs_port_bind.mp hinstall
    have hcap : withCapacity n = .returned [] := if_pos hn
    rw [hcap] at hprime
    obtain ⟨t₃, t₄, primed, rfl, hprimed, hend⟩ := Prog.runs_bind.mp hprime
    obtain ⟨slots, hlength, hcase⟩ := primeCapture_runs hprimed
    rcases hcase with ⟨rfl, rfl⟩ | ⟨e, hfails, rfl⟩
    · obtain ⟨rfl, rfl⟩ := hend
      rw [List.append_nil]
      exact Or.inl ⟨payload, cb, slots, hlength, rfl, rfl⟩
    · obtain ⟨t₅, t₆, u, rfl, hunwind, hdone⟩ := Prog.runs_bind.mp hend
      obtain ⟨rfl, rfl⟩ := hdone
      have htried := hfails.append_left [portEvent (.payloadSize cam.handle) (.ok payload),
        portEvent (.installFrameCallback f) cb]
      refine Or.inr ⟨payload, cb, slots, _, e, t₅, hlength, htried, ?_, ?_, rfl⟩
      · simp
      · rw [if_neg ?_]
        · exact unwind_runs hunwind
        · -- The payload size and the callback came before the call that failed.
          simp

/-- **The calls of a capture start.** With a live session there are none; otherwise the start carries
out the plan of `n` buffers, or carries it out until a call fails and unwinds once. -/
theorem startCapture_plan {σ : Type} (m : VmbRuntime σ) (s : σ) (cam : Camera) (f : FrameCallback)
    (hn : Allocatable n) :
    let calls := ((cam.startCapture n f).history m s).map Prod.snd
    let out := ((cam.startCapture n f).run m s).1
    (cam.session ≠ none →
      calls = [] ∧ out = (.returned (.error .captureAlreadyRunning), cam)) ∧
    (cam.session = none → Completes cam n f calls out ∨ Aborts cam n f calls out) := by
  intro calls out
  constructor
  · intro hs
    obtain ⟨session, hsession⟩ := Option.ne_none_iff_exists'.mp hs
    have hrefused : cam.startCapture n f = .done (.returned (.error .captureAlreadyRunning), cam) := by
      unfold startCapture
      rw [hsession]
      rfl
    exact ⟨by simp [calls, hrefused, Prog.history], by simp [out, hrefused]⟩
  · intro hs
    exact startCapture_runs hs hn (Prog.runs_history m (cam.startCapture n f) s)

/-- An open camera. -/
def idle : Camera := ⟨⟨⟨1, nonZero_one⟩⟩, "cam-a", none⟩

theorem startCapture_plan_idle :
    (idle.session ≠ none →
      ((idle.startCapture 2 ⟨7⟩).history countingRuntime 2).map Prod.snd = [] ∧
        ((idle.startCapture 2 ⟨7⟩).run countingRuntime 2).1 =
          (.returned (.error .captureAlreadyRunning), idle)) ∧
    (idle.session = none →
      Completes idle 2 ⟨7⟩ (((idle.startCapture 2 ⟨7⟩).history countingRuntime 2).map Prod.snd)
          ((idle.startCapture 2 ⟨7⟩).run countingRuntime 2).1 ∨
        Aborts idle 2 ⟨7⟩ (((idle.startCapture 2 ⟨7⟩).history countingRuntime 2).map Prod.snd)
          ((idle.startCapture 2 ⟨7⟩).run countingRuntime 2).1) :=
  startCapture_plan countingRuntime 2 idle ⟨7⟩ (by decide)

end Camera

end Vmb.Core

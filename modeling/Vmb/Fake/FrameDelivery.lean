/-
# Vmb.Fake.FrameDelivery -- frames reach live sessions only

A test runs a client program over the fake, rigs failures and delivers frames in between. What a
frame should do is read off the operations alone: `Scene.started` records, for each name, the number
of buffers and the closure of the capture start whose session is live. `deliver_frame` goes through
two tables that start, failed start, stop and drop all change, and in every run it invokes exactly
the closure the record names (`delivers_live`).
-/
import Vmb.Core.CapturePlan
import Vmb.Fake.Driving
import Vmb.Fake.Resources

namespace Vmb.Fake

open Vmb.Lib Vmb.Core

/-! ## Scenes -/

/-- A frame a test delivers, and how the closure that gets it ends. -/
structure TestFrame where
  camera : CameraHandle
  bytes : List UInt8
  width : UInt32
  height : UInt32
  pixelFormat : PixelFormat
  ends : Exit Unit

/-- What a test does next. -/
inductive Turn where
  | op (op : Op)
  | failNth (method : Method) (skip : UInt64) (err : VmbError)
  | deliverFrame (frame : TestFrame)

/-- The buffers and the closure of the live session of a name, after an operation on it that ended
so. -/
def sessionAfter (live : Option (Nat × FrameCallback)) : Action → Outcome →
    Option (Nat × FrameCallback)
  | .startCapture n f, .finished (.returned (.ok ())) => some (n, f)
  | .stopCapture, .finished _ => none
  | .drop, .finished _ => none
  | _, _ => live

/-- A test between two turns: the objects of the client, the fake, the live sessions, and the
invocations so far. -/
structure Scene where
  world : World
  state : FakeState
  started : Nat → Option (Nat × FrameCallback)
  invoked : List Invocation

namespace Scene

/-- A new fake and a client that owns nothing. -/
def start (config : Config) : Scene := ⟨.empty, .configured config, fun _ => none, []⟩

/-- The call of `deliver_frame`. -/
def delivery (x : Scene) (d : TestFrame) : Prog Closures (Exit Bool × FakeState) :=
  x.state.deliverFrame d.camera d.bytes d.width d.height d.pixelFormat

/-- What the call of `deliver_frame` ends with. -/
def delivered (x : Scene) (d : TestFrame) : Exit Bool × FakeState :=
  ((x.delivery d).run (closures fun _ => d.ends) ()).1

/-- The closures the call of `deliver_frame` invokes. -/
def invocationsOf (x : Scene) (d : TestFrame) : List Invocation :=
  invocations (fun _ => d.ends) (x.delivery d)

/-- One turn. -/
def turn (x : Scene) : Turn → Scene
  | .op op =>
    let r := (op.run x.world).run fakeVmbRuntime x.state
    { x with
      world := r.1.2
      state := r.2
      started := Function.update x.started op.target
        (sessionAfter (x.started op.target) op.action r.1.1) }
  | .failNth method skip err => { x with state := x.state.failNth method skip err }
  | .deliverFrame d =>
    { x with state := (x.delivered d).2, invoked := x.invoked ++ x.invocationsOf d }

/-- A test. -/
def run (x : Scene) (turns : List Turn) : Scene := turns.foldl turn x

/-- The handle is that of a live camera, with a live session of `n` buffers and the closure `f`. -/
def Live (x : Scene) (h : CameraHandle) (n : Nat) (f : FrameCallback) : Prop :=
  ∃ i cam g, x.world i = some (.camera cam g) ∧ cam.handle = h ∧ x.started i = some (n, f)

/-- The frame reaches the closure of the live session, and nothing else. -/
structure Delivers (x : Scene) (d : TestFrame) : Prop where
  live : ∀ n f, x.Live d.camera n f → 0 < n →
    (∃ id, x.invocationsOf d = [.frame f ⟨d.bytes, d.width, d.height, d.pixelFormat, id, id⟩]) ∧
      -- a closure that panics does not let `deliver_frame` return
      (x.delivered d).1 = match d.ends with
        | .returned () => .returned true
        | .panicked m => .panicked m
  other : (¬ ∃ n f, x.Live d.camera n f ∧ 0 < n) →
    x.invocationsOf d = [] ∧ x.delivered d = (.returned false, x.state)

end Scene

/-- The id of the frame a closure got. -/
def frameIdOf : Invocation → Option UInt64
  | .frame _ frame => some frame.frameId
  | .discovery _ _ _ => none

/-! ## The record of sessions -/

/-- The session an object has. -/
def sessionOf : Option Object → Option (Nat × FrameCallback)
  | some (.camera cam f) => cam.session.map fun session => (session.slots.length, f)
  | _ => none

section Record

variable {σ : Type} (m : VmbRuntime σ) (s : σ)

/-- A start that returns `Ok` opens a session with a slot for each buffer, and any other leaves the
camera as it was. -/
theorem startCapture_session (cam : Camera) (n : Nat) (f : FrameCallback) :
    (((cam.startCapture n f).run m s).1.1 = .returned (.ok ()) ∧
      ∃ session, session.slots.length = n ∧
        ((cam.startCapture n f).run m s).1.2 = { cam with session := some session }) ∨
    ((cam.startCapture n f).run m s).1.1 ≠ .returned (.ok ()) ∧
      ((cam.startCapture n f).run m s).1.2 = cam := by
  rcases hs : cam.session with - | session
  · by_cases hn : Allocatable n
    · rcases Camera.startCapture_runs hs hn (Prog.runs_history m (cam.startCapture n f) s) with
        ⟨payload, cb, slots, hlength, -, hout⟩ | ⟨payload, cb, slots, tried, e, unwinding, -, -, -, -, hout⟩
      · rw [hout]
        exact Or.inl ⟨rfl, ⟨cb, slots⟩, hlength, rfl⟩
      · rw [hout]
        exact Or.inr ⟨(fun h => nomatch h), rfl⟩
    -- the slot vector cannot be allocated, so the start ends before the first announcement
    · have hcap : withCapacity n = .panicked "capacity overflow" := if_neg hn
      have hruns := Prog.runs_history m (cam.startCapture n f) s
      generalize ((cam.startCapture n f).run m s).1 = out at hruns ⊢
      refine Or.inr ?_
      unfold Camera.startCapture at hruns
      rw [hs] at hruns
      obtain ⟨answer, rest, -, hruns⟩ := hruns
      rcases answer with e | payload
      · obtain ⟨-, rfl⟩ := hruns
        exact ⟨(fun h => nomatch h), rfl⟩
      · obtain ⟨cb, rest, -, hruns⟩ := hruns
        rw [hcap] at hruns
        obtain ⟨-, rfl⟩ := hruns
        exact ⟨(fun h => nomatch h), rfl⟩
  · refine Or.inr ?_
    unfold Camera.startCapture
    rw [hs]
    exact ⟨(fun h => nomatch h), rfl⟩

theorem stopCapture_session (cam : Camera) :
    ((cam.stopCapture).run m s).1 = (.ok (), { cam with session := none }) := by
  obtain ⟨h, id, - | session⟩ := cam
  · rfl
  · rfl

/-- A method call changes the session of its object as recorded. -/
theorem perform_session (a : Action) (obj : Option Object) :
    sessionOf ((a.perform obj).run m s).1.2 =
      sessionAfter (sessionOf obj) a ((a.perform obj).run m s).1.1 := by
  rcases a.perform_cases obj with hskipped | happlies
  · rw [hskipped]
    cases a <;> rfl
  cases happlies with
  | startup =>
      simp only [Action.perform, Action.startupOn, Prog.run_bind, Prog.pure_eq_done, Prog.run_done]
      rcases (VmbSystem.startup.run m s).1 with e | ⟨⟨⟩⟩ <;> rfl
  | listCameras => rfl
  | openCamera id =>
      have hruns := Prog.runs_history m ((Action.openCamera id).perform none) s
      generalize (((Action.openCamera id).perform none).run m s).1 = out at hruns ⊢
      obtain ⟨answer, rest, -, hend⟩ := hruns
      rcases answer with (e | h) | msg <;> obtain ⟨-, rfl⟩ := hend <;> rfl
  | registerDiscovery f =>
      simp only [Action.perform, Action.registerDiscoveryOn, Prog.run_bind]
      rcases ((VmbSystem.registerDiscovery f).run m s).1 with e | reg <;> rfl
  | loadSettings path cam f => rfl
  | startCapture n f cam old =>
      simp only [Action.perform, Action.startCaptureOn, Prog.run_bind, Prog.pure_eq_done,
        Prog.run_done]
      rcases startCapture_session m s cam n f with ⟨hok, session, hlength, hcam⟩ | ⟨hne, hcam⟩
      · rw [hok, hcam, if_pos rfl, ← hlength]
        rfl
      · rw [hcam, if_neg hne]
        rcases hout : ((cam.startCapture n f).run m s).1.1 with (e | ⟨⟨⟩⟩) | msg
        · rfl
        · exact absurd hout hne
        · rfl
  | stopCapture cam f =>
      simp only [Action.perform, Action.stopCaptureOn, Prog.run_bind, Prog.pure_eq_done,
        Prog.run_done, stopCapture_session]
      rfl
  | dropSystem => rfl
  | dropCamera cam f =>
      simp only [Action.perform, Prog.run_bind, Prog.pure_eq_done, Prog.run_done]
      rfl
  | dropRegistration reg f =>
      simp only [Action.perform, Prog.run_bind, Prog.pure_eq_done, Prog.run_done]
      rfl

/-- **The record follows the objects.** -/
theorem op_session (op : Op) (W : World) :
    sessionOf (((op.run W).run m s).1.2 op.target) =
      sessionAfter (sessionOf (W op.target)) op.action ((op.run W).run m s).1.1 := by
  unfold Op.run
  split
  · simp only [Prog.run_bind, Prog.pure_eq_done, Prog.run_done, Function.update_self]
    exact perform_session m s op.action (W op.target)
  · cases op.action <;> rfl

end Record

/-! ## The invariant -/

namespace Scene

variable {x : Scene}

/-- The ids of the frames so far. -/
def frameIds (x : Scene) : List UInt64 := x.invoked.filterMap frameIdOf

/-- The tables are those of the live objects, and so is the record; the frame ids come from the
counter, one after the other. -/
structure Ok (x : Scene) : Prop where
  accounted : Accounted (fun _ => False) x.state x.world.holdings
  complete : x.world.Complete
  started : ∀ i, x.started i = sessionOf (x.world i)
  increasing : x.frameIds.Pairwise (· < ·)
  counted : ∀ id ∈ x.frameIds, id.toNat < x.state.counter

theorem ok_start (config : Config) : (start config).Ok where
  accounted := accounted_configured config
  complete := complete_empty
  started _ := rfl
  increasing := List.Pairwise.nil
  counted := fun _ hid => absurd hid List.not_mem_nil

/-! ## One frame -/

/-- A live session with a buffer has its callback at the head of its entry. -/
theorem Ok.delivery_live (hx : x.Ok) {d : TestFrame} {n : Nat} {f : FrameCallback}
    (hlive : x.Live d.camera n f) (hn : 0 < n) :
    x.delivery d = Prog.call (S := Closures)
      (.frame f ⟨d.bytes, d.width, d.height, d.pixelFormat, x.state.currentId, x.state.currentId⟩)
      fun r => match r with
        | .panicked m => pure (.panicked m, x.state.nextU64.2)
        | .returned () => pure (.returned true, x.state.nextU64.2) := by
  have htables := hx.accounted.corresponds hx.complete
  obtain ⟨i, cam, g, hcam, hhandle, hstarted⟩ := hlive
  rw [hx.started, hcam] at hstarted
  obtain ⟨session, hsession, hpair⟩ := Option.map_eq_some_iff.mp hstarted
  obtain ⟨hlength, rfl⟩ := Prod.mk.inj hpair
  have hentry := (htables.activeCaptures d.camera _).mpr
    ⟨i, cam, g, session, hcam, hsession, hhandle, rfl⟩
  have hcallback := htables.frameCallbacks i cam g session hcam hsession
  obtain ⟨slot, slots, hslots⟩ := List.exists_cons_of_length_pos (hlength ▸ hn)
  rw [hslots] at hentry
  unfold delivery FakeState.deliverFrame
  rw [hentry]
  simp only [List.map_cons, Option.bind_some, List.head?_cons, hcallback]
  refine congrArg (Prog.call (S := Closures) _) (funext fun r => ?_)
  rcases r with ⟨⟨⟩⟩ | m
  · rfl
  · rfl

theorem Ok.delivery_other (hx : x.Ok) {d : TestFrame}
    (hnone : ¬ ∃ n f, x.Live d.camera n f ∧ 0 < n) :
    x.delivery d = pure (.returned false, x.state) := by
  have htables := hx.accounted.corresponds hx.complete
  unfold delivery FakeState.deliverFrame
  rcases hentry : x.state.activeCaptures.lookup d.camera with - | w
  · rfl
  · obtain ⟨i, cam, f, session, hcam, hsession, hhandle, rfl⟩ :=
      (htables.activeCaptures d.camera w).mp hentry
    rcases hslots : session.slots with - | ⟨slot, slots⟩
    · rfl
    · refine absurd ⟨session.slots.length, f, ⟨i, cam, f, hcam, hhandle, ?_⟩, ?_⟩ hnone
      · rw [hx.started, hcam]
        simp [sessionOf, hsession]
      · simp [hslots]

/-- The closure of a live session gets the frame under the next identifier. -/
theorem Ok.delivered_live (hx : x.Ok) {d : TestFrame} {n : Nat} {f : FrameCallback}
    (hlive : x.Live d.camera n f) (hn : 0 < n) :
    x.invocationsOf d = [.frame f ⟨d.bytes, d.width, d.height, d.pixelFormat, x.state.currentId,
        x.state.currentId⟩] ∧
      x.delivered d = (match d.ends with
        | .returned () => .returned true
        | .panicked m => .panicked m, x.state.nextU64.2) := by
  have hdelivery := hx.delivery_live hlive hn
  unfold invocationsOf delivered
  rw [hdelivery]
  rcases hends : d.ends with ⟨⟨⟩⟩ | m
  · exact ⟨rfl, rfl⟩
  · exact ⟨rfl, rfl⟩

theorem Ok.delivers (hx : x.Ok) (d : TestFrame) : x.Delivers d := by
  constructor
  · intro n f hlive hn
    obtain ⟨hinvoked, hdelivered⟩ := hx.delivered_live hlive hn
    exact ⟨⟨x.state.currentId, hinvoked⟩, congrArg Prod.fst hdelivered⟩
  · intro hnone
    have hdelivery := hx.delivery_other hnone
    unfold invocationsOf delivered
    rw [hdelivery]
    exact ⟨rfl, rfl⟩

/-! ## Runs -/

/-- Identifiers are drawn, and nothing else about the tables and the counter changes. -/
theorem accounted_count {s : FakeState} {L : Nat → Holdings} (hs : Accounted (fun _ => False) s L)
    (n : Nat) : Accounted (fun _ => False) { s with counter := s.counter + n } L where
  tables := { hs.tables with }
  counted := {
    cameras := hs.counted.cameras.mono (Nat.le_add_right _ _)
    announcedFrames := hs.counted.announcedFrames.mono (Nat.le_add_right _ _)
    frameCallbacks := hs.counted.frameCallbacks.mono (Nat.le_add_right _ _)
    discoveryCallbacks := hs.counted.discoveryCallbacks.mono (Nat.le_add_right _ _)
    discoveryRegs := hs.counted.discoveryRegs.mono (Nat.le_add_right _ _) }
  subscribed := hs.subscribed

theorem counter_le_op (op : Op) (W : World) (s : FakeState) :
    s.counter ≤ ((op.run W).run fakeVmbRuntime s).2.counter := by
  refine Prog.run_invariant fakeVmbRuntime (fun s' => s.counter ≤ s'.counter) (fun s' c hle => ?_)
    (op.run W) s (Nat.le_refl _)
  obtain ⟨s₁, config, calls, heff, -, hstate⟩ := fakeVmbRuntime_step s' c
  rw [hstate]
  exact Nat.le_trans hle heff.counter_le

/-- An operation keeps the invariant. -/
theorem Ok.op (hx : x.Ok) (op : Op) (hids : (x.turn (.op op)).state.counter ≤ 2 ^ 64) :
    (x.turn (.op op)).Ok where
  accounted := accounted_op hx.accounted op (fun _ _ => id) hids
  complete := op.run_complete hx.complete _
  started i := by
    show Function.update x.started op.target _ i = sessionOf _
    rcases eq_or_ne i op.target with rfl | hne
    · rw [Function.update_self, hx.started]
      exact (op_session fakeVmbRuntime x.state op x.world).symm
    · rw [Function.update_of_ne hne, hx.started]
      exact congrArg sessionOf (op.run_other x.world x.state hne).symm
  increasing := hx.increasing
  counted id hid := Nat.lt_of_lt_of_le (hx.counted id hid) (counter_le_op op x.world x.state)

/-- So does a frame: it draws an identifier that no frame had before, or changes nothing. -/
theorem Ok.deliverFrame (hx : x.Ok) (d : TestFrame)
    (hids : (x.turn (.deliverFrame d)).state.counter ≤ 2 ^ 64) : (x.turn (.deliverFrame d)).Ok := by
  by_cases hlive : ∃ n f, x.Live d.camera n f ∧ 0 < n
  · obtain ⟨n, f, hlive, hn⟩ := hlive
    obtain ⟨hinvoked, hdelivered⟩ := hx.delivered_live hlive hn
    have hstate : (x.turn (.deliverFrame d)).state = { x.state with counter := x.state.counter + 1 } :=
      congrArg Prod.snd hdelivered
    have hframes : (x.turn (.deliverFrame d)).frameIds = x.frameIds ++ [x.state.currentId] := by
      show (x.invoked ++ x.invocationsOf d).filterMap frameIdOf = _
      rw [hinvoked, List.filterMap_append]
      rfl
    rw [hstate] at hids
    have hnext : x.state.currentId.toNat = x.state.counter :=
      UInt64.toNat_ofNat_of_lt' (Nat.lt_of_succ_le hids)
    refine ⟨hstate ▸ accounted_count hx.accounted 1, hx.complete, hx.started, ?_, ?_⟩
    · rw [hframes, List.pairwise_append]
      refine ⟨hx.increasing, List.pairwise_singleton _ _, fun id hid id' hid' => ?_⟩
      rw [List.mem_singleton.mp hid', UInt64.lt_iff_toNat_lt, hnext]
      exact hx.counted id hid
    · rw [hframes, hstate]
      intro id hid
      rcases List.mem_append.mp hid with hid | hid
      · exact Nat.lt_succ_of_lt (hx.counted id hid)
      · rw [List.mem_singleton.mp hid, hnext]
        exact Nat.lt_succ_self _
  · obtain ⟨hinvoked, hdelivered⟩ := (hx.delivers d).other hlive
    have hturn : x.turn (.deliverFrame d) = x := by
      show { x with state := (x.delivered d).2, invoked := x.invoked ++ x.invocationsOf d } = x
      rw [hinvoked, hdelivered, List.append_nil]
    rw [hturn]
    exact hx

/-- A rigged failure changes the configuration only. -/
theorem Ok.failNth (hx : x.Ok) (method : Method) (skip : UInt64) (err : VmbError) :
    (x.turn (.failNth method skip err)).Ok where
  accounted := ⟨{ hx.accounted.tables with }, { hx.accounted.counted with }, hx.accounted.subscribed⟩
  complete := hx.complete
  started := hx.started
  increasing := hx.increasing
  counted := hx.counted

/-- **A turn keeps the invariant**, as long as the counter has not wrapped. -/
theorem Ok.turn (hx : x.Ok) (t : Turn) (hids : (x.turn t).state.counter ≤ 2 ^ 64) :
    (x.turn t).Ok := by
  cases t with
  | op op => exact hx.op op hids
  | failNth method skip err => exact hx.failNth method skip err
  | deliverFrame d => exact hx.deliverFrame d hids

theorem counter_le_turn (x : Scene) (t : Turn) : x.state.counter ≤ (x.turn t).state.counter := by
  cases t with
  | op op => exact counter_le_op op x.world x.state
  | failNth method skip err => exact Nat.le_refl _
  | deliverFrame d =>
      show _ ≤ (x.delivered d).2.counter
      unfold delivered delivery FakeState.deliverFrame
      rcases (x.state.activeCaptures.lookup d.camera).bind List.head? with - | ⟨slot, cb⟩
      · exact Nat.le_refl _
      · dsimp only
        rcases x.state.frameCallbacks.lookup cb with - | f
        · exact Nat.le_refl _
        · rcases hends : d.ends with ⟨⟨⟩⟩ | m
          · exact Nat.le_succ _
          · exact Nat.le_succ _

theorem counter_le_run (x : Scene) (turns : List Turn) :
    x.state.counter ≤ (x.run turns).state.counter := by
  induction turns generalizing x with
  | nil => exact Nat.le_refl _
  | cons t turns ih => exact Nat.le_trans (counter_le_turn x t) (ih (x.turn t))

/-- **And so does a run.** -/
theorem Ok.run (hx : x.Ok) (turns : List Turn) (hids : (x.run turns).state.counter ≤ 2 ^ 64) :
    (x.run turns).Ok := by
  induction turns generalizing x with
  | nil => exact hx
  | cons t turns ih =>
      have hturn : (x.turn t).state.counter ≤ 2 ^ 64 :=
        Nat.le_trans (counter_le_run (x.turn t) turns) hids
      exact ih (hx.turn t hturn) hids

theorem run_append (x : Scene) (before after : List Turn) :
    x.run (before ++ after) = (x.run before).run after := List.foldl_append ..

end Scene

/-- **Frames reach live sessions only.** In every run of operations, rigged failures and delivered
frames that issues fewer than `2^64` identifiers, every frame reaches the closure of the live session
of its camera, and no other; and the frame ids increase. -/
theorem delivers_live (config : Config) (turns : List Turn)
    (hids : ((Scene.start config).run turns).state.counter ≤ 2 ^ 64) :
    (∀ before d after, turns = before ++ .deliverFrame d :: after →
      ((Scene.start config).run before).Delivers d) ∧
    ((Scene.start config).run turns).frameIds.Pairwise (· < ·) := by
  refine ⟨fun before d after hturns => ?_, ((Scene.ok_start config).run turns hids).increasing⟩
  rw [hturns, Scene.run_append] at hids
  have hbefore := Nat.le_trans (Scene.counter_le_run _ _) hids
  exact ((Scene.ok_start config).run before hbefore).delivers d

/-- A frame of the first camera. -/
def testFrame : TestFrame := ⟨⟨⟨1, nonZero_one⟩⟩, [1, 2, 3], 3, 1, .mono8, .returned ()⟩

/-- A frame is delivered during a capture, and another one after it. -/
def frameAfterStop : List Turn :=
  [.op ⟨0, none, .openCamera "cam-a"⟩, .op ⟨0, none, .startCapture 1 ⟨7⟩⟩, .deliverFrame testFrame,
    .op ⟨0, none, .stopCapture⟩, .deliverFrame testFrame]

theorem delivers_live_frameAfterStop :
    (∀ before d after, frameAfterStop = before ++ .deliverFrame d :: after →
      ((Scene.start FakeState.new.config).run before).Delivers d) ∧
    ((Scene.start FakeState.new.config).run frameAfterStop).frameIds.Pairwise (· < ·) :=
  delivers_live FakeState.new.config frameAfterStop (by decide +kernel)

/-- The closure gets the first frame only. -/
example : ((Scene.start FakeState.new.config).run frameAfterStop).invoked =
    [.frame ⟨7⟩ ⟨[1, 2, 3], 3, 1, .mono8, 4, 4⟩] := by
  decide +kernel

end Vmb.Fake

/-
# Vmb.Core.Agreement -- one client program on two runtimes

Two runtimes that give the same answers, except perhaps for the text of an SDK error, lead a client
program through the same worlds: no method of the domain layer looks at an error, it only hands it
on. `perform_agree` says so of one method call, and `runOps_alike` of whole runs on two runtimes
that serve the owners in step.
-/
import Vmb.Core.Trace
import Vmb.Lib.Handler
import Vmb.Lib.Lockstep
import Vmb.Lib.Utf8

namespace Vmb.Core

open Vmb.Lib

/-! ## The same answer -/

/-- The same error, up to the message of an SDK error. -/
inductive SameError : VmbError → VmbError → Prop
  | sdk (code : Int32) (m m' : String) : SameError (.sdk code m) (.sdk code m')
  | refl (e : VmbError) : SameError e e

/-- The same value, or the same error. -/
inductive SameResult {α : Type} : Result α → Result α → Prop
  | ok (a : α) : SameResult (.ok a) (.ok a)
  | error {e e' : VmbError} (h : SameError e e') : SameResult (.error e) (.error e')

theorem SameError.trans {e e' e'' : VmbError} (h : SameError e e') (h' : SameError e' e'') :
    SameError e e'' := by
  cases h with
  | refl e => exact h'
  | sdk code m m' =>
      cases h' with
      | sdk code m' m'' => exact .sdk code m m''
      | refl e => exact .sdk code m m'

theorem SameResult.trans {α : Type} {r r' r'' : Result α} (h : SameResult r r')
    (h' : SameResult r' r'') : SameResult r r'' := by
  cases h with
  | ok a => exact h'
  | error he =>
      cases h' with
      | error he' => exact .error (he.trans he')

/-- The same result, or a panic on both sides. -/
inductive SameExit {α : Type} : Exit (Result α) → Exit (Result α) → Prop
  | returned {r r' : Result α} (h : SameResult r r') : SameExit (.returned r) (.returned r')
  | panicked (m m' : String) : SameExit (.panicked m) (.panicked m')

theorem SameExit.trans {α : Type} {r r' r'' : Exit (Result α)} (h : SameExit r r')
    (h' : SameExit r' r'') : SameExit r r'' := by
  cases h with
  | returned hr =>
      cases h' with
      | returned hr' => exact .returned (hr.trans hr')
  | panicked m m' =>
      cases h' with
      | panicked m' m'' => exact .panicked m m''

/-- The same answer to a port call. -/
def SameAnswer : (c : PortCall) → c.Resp → c.Resp → Prop
  | .startup, r, r' => SameResult r r'
  | .listCameras, r, r' => SameResult r r'
  | .openCamera _, r, r' => SameExit r r'
  | .loadSettings _ _, r, r' => SameResult r r'
  | .runFeatureCommand _ _, r, r' => SameResult r r'
  | .payloadSize _, r, r' => SameResult r r'
  | .announceFrame _ _, r, r' => SameResult r r'
  | .captureStart _, r, r' => SameResult r r'
  | .queueFrame _ _ _, r, r' => SameResult r r'
  | .registerDiscovery _, r, r' => SameResult r r'
  | _, r, r' => r = r'

theorem SameAnswer.trans {c : PortCall} {r r' r'' : c.Resp} (h : SameAnswer c r r')
    (h' : SameAnswer c r' r'') : SameAnswer c r r'' := by
  cases c with
  | openCamera id => exact SameExit.trans h h'
  | startup => exact SameResult.trans h h'
  | listCameras => exact SameResult.trans h h'
  | loadSettings handle path => exact SameResult.trans h h'
  | runFeatureCommand handle name => exact SameResult.trans h h'
  | payloadSize handle => exact SameResult.trans h h'
  | announceFrame handle size => exact SameResult.trans h h'
  | captureStart handle => exact SameResult.trans h h'
  | queueFrame handle slot cb => exact SameResult.trans h h'
  | registerDiscovery cb => exact SameResult.trans h h'
  | _ => exact Eq.trans h h'

theorem SameAnswer.refl {c : PortCall} (r : c.Resp) : SameAnswer c r r := by
  have hresult : ∀ {α : Type} (r : Result α), SameResult r r := by
    intro α r
    rcases r with e | a
    · exact .error (.refl e)
    · exact .ok a
  cases c with
  | openCamera id =>
      rcases r with r | m
      · exact .returned (hresult r)
      · exact .panicked m m
  | startup => exact hresult r
  | listCameras => exact hresult r
  | loadSettings handle path => exact hresult r
  | runFeatureCommand handle name => exact hresult r
  | payloadSize handle => exact hresult r
  | announceFrame handle size => exact hresult r
  | captureStart handle => exact hresult r
  | queueFrame handle slot cb => exact hresult r
  | registerDiscovery cb => exact hresult r
  | _ => rfl

/-- The same outcome of a method call. -/
inductive SameOutcome : Outcome → Outcome → Prop
  | finished {r r' : Exit (Result Unit)} (h : SameExit r r') : SameOutcome (.finished r) (.finished r')
  | refl (o : Outcome) : SameOutcome o o

/-- The same operation of two runs: in the same world, with the same outcome. -/
structure SameStep (st st' : Step) : Prop where
  world : st'.world = st.world
  op : st'.op = st.op
  outcome : SameOutcome st.outcome st'.outcome

theorem SameResult.outcome {α : Type} {r r' : Result α} (h : SameResult r r') :
    SameOutcome (.ofResult r) (.ofResult r') := by
  rcases h with a | he
  · exact .refl _
  · exact .finished (.returned (.error he))

/-- The same answers issue the same identifiers. -/
theorem SameAnswer.issued_eq {c : PortCall} {r r' : c.Resp} (h : SameAnswer c r r') :
    issued ⟨c, r'⟩ = issued ⟨c, r⟩ := by
  cases c with
  | openCamera id =>
      rcases (h : SameExit r r') with (a | he) | ⟨m, m'⟩
      · rfl
      · rfl
      · rfl
  | announceFrame h' size =>
      rcases (h : SameResult r r') with a | he
      · rfl
      · rfl
  | registerDiscovery cb =>
      rcases (h : SameResult r r') with a | he
      · rfl
      · rfl
  | installFrameCallback f =>
      obtain rfl : r = r' := h
      rfl
  | installDiscoveryCallback f =>
      obtain rfl : r = r' := h
      rfl
  | _ => rfl

/-- The same answers leave the same view. -/
theorem SameAnswer.afterCall_eq {c : PortCall} {r r' : c.Resp} (h : SameAnswer c r r')
    (v : Holdings) : afterCall v c r' = afterCall v c r := by
  cases c with
  | openCamera id =>
      rcases (h : SameExit r r') with (a | he) | ⟨m, m'⟩
      · rfl
      · rfl
      · rfl
  | runFeatureCommand h' name =>
      rcases (h : SameResult r r') with a | he
      · rfl
      · rfl
  | announceFrame h' size =>
      rcases (h : SameResult r r') with a | he
      · rfl
      · rfl
  | captureStart h' =>
      rcases (h : SameResult r r') with a | he
      · rfl
      · rfl
  | queueFrame h' slot cb =>
      rcases (h : SameResult r r') with a | he
      · rfl
      · rfl
  | registerDiscovery cb =>
      rcases (h : SameResult r r') with a | he
      · rfl
      · rfl
  | installFrameCallback f =>
      obtain rfl : r = r' := h
      rfl
  | installDiscoveryCallback f =>
      obtain rfl : r = r' := h
      rfl
  | _ => rfl

/-- An error that does not come from the SDK is the same on both sides. -/
theorem SameAnswer.fails {c : PortCall} {r r' : c.Resp} (h : SameAnswer c r r') {e : VmbError}
    (he : ∀ rc m, e ≠ .sdk rc m) (hfails : Fails e c r') : Fails e c r := by
  have hresult : ∀ {α : Type} {r r' : Result α}, SameResult r r' → r' = .error e → r = .error e := by
    rintro α r r' (a | hsame) hr
    · cases hr
    · cases hr
      cases hsame with
      | sdk rc m m' => exact absurd rfl (he rc m')
      | refl e => rfl
  cases c with
  | openCamera id =>
      rcases (h : SameExit r r') with hsame | ⟨m, m'⟩
      · exact congrArg _ (hresult hsame (Exit.returned.inj hfails))
      · cases hfails
  | startup => exact hresult h hfails
  | listCameras => exact hresult h hfails
  | loadSettings h' path => exact hresult h hfails
  | runFeatureCommand h' name => exact hresult h hfails
  | payloadSize h' => exact hresult h hfails
  | announceFrame h' size => exact hresult h hfails
  | captureStart h' => exact hresult h hfails
  | queueFrame h' slot cb => exact hresult h hfails
  | registerDiscovery cb => exact hresult h hfails
  | _ => exact absurd hfails id

/-! ## Answers and return codes -/

/-- A value, or the error of a failed SDK call. -/
def report {α : Type} (rc : Int32) (a : α) : Result α := if rc = 0 then .ok a else .error (sdkError rc)

@[simp] theorem report_zero {α : Type} (a : α) : report 0 a = .ok a := rfl

theorem report_of_ne {α : Type} {rc : Int32} (h : rc ≠ 0) (a : α) :
    report rc a = .error (sdkError rc) := if_neg h

/-- What a call is answered when the SDK returns `rc` and the next identifier is `next`. -/
def reply (rc : Int32) (next : UInt64) (payload : UInt32) : (c : PortCall) → c.Resp
  | .startup => report rc ()
  | .shutdown => ()
  | .listCameras => report rc []
  | .openCamera _ =>
    if rc ≠ 0 then .returned (.error (sdkError rc))
    else if h : next ≠ 0 then .returned (.ok ⟨⟨next, h⟩⟩)
    else .panicked "identifiers exhausted"
  | .closeCamera _ => ()
  | .loadSettings _ _ => report rc ()
  | .runFeatureCommand _ _ => report rc ()
  | .payloadSize _ => report rc payload
  | .announceFrame _ _ => report rc ⟨next⟩
  | .captureStart _ => report rc ()
  | .queueFrame _ _ _ => report rc ()
  | .captureEnd _ => ()
  | .captureQueueFlush _ => ()
  | .frameRevokeAll _ => ()
  | .registerDiscovery _ => report rc ⟨next⟩
  | .unregisterDiscovery _ => ()
  | .installFrameCallback _ => ⟨next⟩
  | .uninstallFrameCallback _ => ()
  | .installDiscoveryCallback _ => ⟨next⟩
  | .uninstallDiscoveryCallback _ => ()

/-- No reply is an unknown identifier. -/
theorem reply_known {rc : Int32} {next : UInt64} {payload : UInt32} {c : PortCall}
    {context : String} : ¬ Fails (.invalidString context) c (reply rc next payload c) := by
  have hreport : ∀ {α : Type} (a : α), report rc a ≠ .error (.invalidString context) := by
    intro α a
    unfold report
    split
    · simp
    · simp [sdkError]
  cases c with
  | openCamera id =>
      unfold reply
      split
      · simp [Fails, sdkError]
      · split <;> simp [Fails]
  | startup => exact hreport _
  | listCameras => exact hreport _
  | loadSettings h path => exact hreport _
  | runFeatureCommand h name => exact hreport _
  | payloadSize h => exact hreport _
  | announceFrame h size => exact hreport _
  | captureStart h => exact hreport _
  | queueFrame h slot cb => exact hreport _
  | registerDiscovery cb => exact hreport _
  | _ => exact id

/-- The SDK code of a result, `0` if it is not an SDK error. -/
def errorCode {α : Type} : Result α → Int32
  | .error (.sdk code _) => code
  | _ => 0

/-- The SDK code a call failed with, `0` if it did not. -/
def failureCode : Event Port → Int32
  | ⟨.startup, r⟩ => errorCode r
  | ⟨.listCameras, r⟩ => errorCode r
  | ⟨.openCamera _, .returned r⟩ => errorCode r
  | ⟨.loadSettings _ _, r⟩ => errorCode r
  | ⟨.runFeatureCommand _ _, r⟩ => errorCode r
  | ⟨.payloadSize _, r⟩ => errorCode r
  | ⟨.announceFrame _ _, r⟩ => errorCode r
  | ⟨.captureStart _, r⟩ => errorCode r
  | ⟨.queueFrame _ _ _, r⟩ => errorCode r
  | ⟨.registerDiscovery _, r⟩ => errorCode r
  | _ => 0

/-- A call that fails with an SDK error is answered as if the SDK had returned its code. -/
theorem Fails.sameAnswer {rc : Int32} (hne : rc ≠ 0) {m : String} {c : PortCall} {r : c.Resp}
    (h : Fails (.sdk rc m) c r) (next : UInt64) (payload : UInt32) :
    SameAnswer c r (reply (failureCode ⟨c, r⟩) next payload c) := by
  have hsame : ∀ {α : Type} (a : α), SameResult (.error (.sdk rc m)) (report rc a) := by
    intro α a
    rw [report_of_ne hne]
    exact .error (.sdk rc _ _)
  cases c with
  | openCamera id =>
      obtain rfl : r = _ := h
      have hreply : reply rc next payload (.openCamera id) = .returned (.error (sdkError rc)) :=
        if_pos hne
      show SameExit _ (reply rc next payload (.openCamera id))
      rw [hreply]
      exact .returned (.error (.sdk rc _ _))
  | startup => exact h ▸ hsame _
  | listCameras => exact h ▸ hsame _
  | loadSettings h' path => exact h ▸ hsame _
  | runFeatureCommand h' name => exact h ▸ hsame _
  | payloadSize h' => exact h ▸ hsame _
  | announceFrame h' size => exact h ▸ hsame _
  | captureStart h' => exact h ▸ hsame _
  | queueFrame h' slot cb => exact h ▸ hsame _
  | registerDiscovery cb => exact h ▸ hsame _
  | _ => exact absurd h id

/-- How far a call moves the identifier counter: an exhausted counter moves on too. -/
def counts : Event Port → Nat
  | ⟨.openCamera _, .returned (.error _)⟩ => 0
  | ⟨.openCamera _, _⟩ => 1
  | ev => if (issued ev).isSome then 1 else 0

theorem SameAnswer.counts_eq {c : PortCall} {r r' : c.Resp} (h : SameAnswer c r r') :
    counts ⟨c, r'⟩ = counts ⟨c, r⟩ := by
  cases c with
  | openCamera id =>
      rcases (h : SameExit r r') with (a | he) | ⟨m, m'⟩
      · rfl
      · rfl
      · rfl
  | _ => exact congrArg (fun o => if Option.isSome o then 1 else 0) h.issued_eq

/-- A failed call issues no identifier. -/
theorem Fails.counts_eq {e : VmbError} {c : PortCall} {r : c.Resp} (h : Fails e c r) :
    counts ⟨c, r⟩ = 0 := by
  cases c with
  | openCamera id => exact h ▸ rfl
  | announceFrame h' size => exact h ▸ rfl
  | registerDiscovery cb => exact h ▸ rfl
  | installFrameCallback f => exact absurd h id
  | installDiscoveryCallback f => exact absurd h id
  | _ => rfl

/-! ## Arguments -/

/-- The call is not `list_cameras`, whose result is outside data, and has no NUL byte in its
argument. -/
def PortCall.Plain : PortCall → Prop
  | .listCameras => False
  | .openCamera id => (0 : UInt8) ∉ bytes id
  | .loadSettings _ path => (0 : UInt8) ∉ path
  | _ => True

/-- The method call is not `list_cameras`, and has no NUL byte in its argument. -/
def Action.Plain : Action → Prop
  | .listCameras => False
  | .openCamera id => (0 : UInt8) ∉ bytes id
  | .loadSettings path => (0 : UInt8) ∉ path
  | _ => True

instance (a : Action) : Decidable a.Plain :=
  match a with
  | .listCameras => isFalse id
  | .openCamera id => inferInstanceAs (Decidable ((0 : UInt8) ∉ bytes id))
  | .loadSettings path => inferInstanceAs (Decidable ((0 : UInt8) ∉ path))
  | .startup => isTrue trivial
  | .registerDiscovery _ => isTrue trivial
  | .startCapture _ _ => isTrue trivial
  | .stopCapture => isTrue trivial
  | .drop => isTrue trivial

/-! ## Domain code agrees with itself -/

variable {α β : Type} {O : α → β → Prop}

/-- The two pieces of domain code make the same plain calls as long as they get the same answers. -/
abbrev Agree (O : α → β → Prop) (p : PortM α) (q : PortM β) : Prop :=
  p.Agrees PortCall.Plain SameAnswer O q

theorem agree_port {c : PortCall} {f : c.Resp → PortM α} {g : c.Resp → PortM β} (hc : c.Plain)
    (h : ∀ r r', SameAnswer c r r' → Agree O (f r) (g r')) : Agree O (port c >>= f) (port c >>= g) :=
  Prog.agrees_call.mpr ⟨hc, h⟩

section Methods

variable (h : CameraHandle) (payload : UInt32) (cb : FrameCallbackId)

theorem announceFrames_agree (n : Nat) (slots : List FrameSlotId) :
    Agree SameResult (Camera.announceFrames h payload n slots)
      (Camera.announceFrames h payload n slots) := by
  induction n generalizing slots with
  | zero => exact .ok slots
  | succ n ih =>
      refine agree_port trivial fun r r' hr => ?_
      rcases (hr : SameResult r r') with slot | he
      · exact ih (slots ++ [slot])
      · exact .error he

theorem queueFrames_agree (slots : List FrameSlotId) :
    Agree SameResult (Camera.queueFrames h cb slots) (Camera.queueFrames h cb slots) := by
  induction slots with
  | nil => exact .ok ()
  | cons slot slots ih =>
      refine agree_port trivial fun r r' hr => ?_
      rcases (hr : SameResult r r') with ⟨⟨⟩⟩ | he
      · exact ih
      · exact .error he

theorem primeCapture_agree (n : Nat) (slots : List FrameSlotId) :
    Agree SameResult (Camera.primeCapture h payload cb n slots)
      (Camera.primeCapture h payload cb n slots) := by
  apply (announceFrames_agree h payload n slots).bind
  intro r r' hr
  rcases hr with slots | he
  · refine agree_port trivial fun r r' hr => ?_
    rcases (hr : SameResult r r') with ⟨⟨⟩⟩ | he
    · apply (queueFrames_agree h cb slots).bind
      intro r r' hr
      rcases hr with ⟨⟨⟩⟩ | he
      · refine agree_port trivial fun r r' hr => ?_
        rcases (hr : SameResult r r') with ⟨⟨⟩⟩ | he
        · exact .ok slots
        · exact .error he
      · exact .error he
    · exact .error he
  · exact .error he

theorem unwind_agree : Agree (fun _ _ => True) (Camera.unwind h cb) (Camera.unwind h cb) := by
  refine agree_port trivial fun _ _ _ => ?_
  refine agree_port trivial fun _ _ _ => ?_
  refine agree_port trivial fun _ _ _ => ?_
  exact agree_port trivial fun _ _ _ => trivial

end Methods

/-- The same results, and the same objects. -/
def SameBoth {α β γ : Type} (O : α → β → Prop) (x : α × γ) (y : β × γ) : Prop := O x.1 y.1 ∧ y.2 = x.2

theorem openCamera_agree {id : String} (hid : (0 : UInt8) ∉ bytes id) :
    Agree SameExit (VmbSystem.openCamera id) (VmbSystem.openCamera id) := by
  refine agree_port hid fun r r' hr => ?_
  rcases (hr : SameExit r r') with (handle | he) | ⟨m, m'⟩
  · exact .returned (.ok _)
  · exact .returned (.error he)
  · exact .panicked m m'

theorem startCapture_agree (cam : Camera) (n : Nat) (f : FrameCallback) :
    Agree (SameBoth SameExit) (cam.startCapture n f) (cam.startCapture n f) := by
  unfold Camera.startCapture
  rcases cam.session with - | session
  · refine agree_port trivial fun r r' hr => ?_
    rcases (hr : SameResult r r') with payload | he
    · refine agree_port trivial fun cb cb' hcb => ?_
      obtain rfl : cb = cb' := hcb
      rcases withCapacity n with slots | m
      · apply (primeCapture_agree cam.handle payload cb n slots).bind
        intro r r' hr
        rcases hr with slots | he
        · exact ⟨.returned (.ok ()), rfl⟩
        · exact (unwind_agree cam.handle cb).bind fun _ _ _ => ⟨.returned (.error he), rfl⟩
      · exact ⟨.panicked m m, rfl⟩
    · exact ⟨.returned (.error he), rfl⟩
  · exact ⟨.returned (.error (.refl _)), rfl⟩

theorem stopCapture_agree (cam : Camera) :
    Agree (SameBoth SameResult) cam.stopCapture cam.stopCapture := by
  unfold Camera.stopCapture
  rcases cam.session with - | session
  · exact ⟨.ok (), rfl⟩
  · -- the result of `AcquisitionStop` is swallowed
    refine agree_port trivial fun _ _ _ => ?_
    exact (unwind_agree cam.handle session.callbackId).bind fun _ _ _ => ⟨.ok (), rfl⟩

theorem Camera.drop_agree (cam : Camera) : Agree (fun _ _ => True) cam.drop cam.drop := by
  unfold Camera.drop
  rcases cam.session with - | session
  · exact agree_port trivial fun _ _ _ => trivial
  · apply (stopCapture_agree cam).bind
    rintro ⟨r, cam'⟩ ⟨r', cam''⟩ ⟨-, hcam : cam'' = cam'⟩
    subst hcam
    exact agree_port trivial fun _ _ _ => trivial

theorem registerCameraDiscovery_agree (f : DiscoveryCallback) :
    Agree SameResult (registerCameraDiscovery f) (registerCameraDiscovery f) := by
  refine agree_port trivial fun cb cb' hcb => ?_
  obtain rfl : cb = cb' := hcb
  refine agree_port trivial fun r r' hr => ?_
  rcases (hr : SameResult r r') with handle | he
  · exact .ok _
  · exact agree_port trivial fun _ _ _ => .error he

theorem DiscoveryRegistration.drop_agree (reg : DiscoveryRegistration) :
    Agree (fun _ _ => True) reg.drop reg.drop := by
  rcases reg with ⟨- | h, - | id⟩
  · trivial
  · exact agree_port trivial fun _ _ _ => trivial
  · exact agree_port trivial fun _ _ _ => trivial
  · exact agree_port trivial fun _ _ _ => agree_port trivial fun _ _ _ => trivial

/-! ## Method calls and runs -/

/-- **A method call has the same outcome on every runtime that gives the same answers**, and leaves
the same object. -/
theorem perform_agree {a : Action} (ha : a.Plain) (obj : Option Object) :
    Agree (SameBoth SameOutcome) (a.perform obj) (a.perform obj) := by
  rcases a.perform_cases obj with hskipped | happlies
  · rw [hskipped]
    exact ⟨.refl _, rfl⟩
  cases happlies with
  | startup =>
      refine agree_port trivial fun r r' hr => ?_
      rcases (hr : SameResult r r') with ⟨⟨⟩⟩ | he
      · exact ⟨.refl _, rfl⟩
      · exact ⟨(SameResult.error he).outcome, rfl⟩
  | listCameras => exact absurd ha id
  | openCamera id =>
      apply (openCamera_agree ha).bind
      intro r r' hr
      rcases hr with (cam | he) | ⟨m, m'⟩
      · exact ⟨.refl _, rfl⟩
      · exact ⟨(SameResult.error he).outcome, rfl⟩
      · exact ⟨.finished (.panicked m m'), rfl⟩
  | registerDiscovery f =>
      apply (registerCameraDiscovery_agree f).bind
      intro r r' hr
      rcases hr with reg | he
      · exact ⟨.refl _, rfl⟩
      · exact ⟨(SameResult.error he).outcome, rfl⟩
  | loadSettings path cam f => exact agree_port ha fun r r' hr => ⟨SameResult.outcome hr, rfl⟩
  | startCapture n f cam old =>
      apply (startCapture_agree cam n f).bind
      rintro ⟨r, cam'⟩ ⟨r', cam''⟩ ⟨hr, hcam : cam'' = cam'⟩
      subst hcam
      rcases (hr : SameExit r r') with (⟨⟨⟩⟩ | he) | ⟨m, m'⟩
      · exact ⟨.refl _, rfl⟩
      · exact ⟨.finished (.returned (.error he)), rfl⟩
      · exact ⟨.finished (.panicked m m'), rfl⟩
  | stopCapture cam f =>
      apply (stopCapture_agree cam).bind
      rintro ⟨r, cam'⟩ ⟨r', cam''⟩ ⟨hr, hcam : cam'' = cam'⟩
      subst hcam
      exact ⟨SameResult.outcome hr, rfl⟩
  | dropSystem => exact agree_port trivial fun _ _ _ => ⟨.refl _, rfl⟩
  | dropCamera cam f => exact cam.drop_agree.bind fun _ _ _ => ⟨.refl _, rfl⟩
  | dropRegistration reg f => exact reg.drop_agree.bind fun _ _ _ => ⟨.refl _, rfl⟩

/-! ## Runs on two runtimes -/

/-- The protocol of a client program: that of an owner, with the calls of a `VmbSystem`. -/
@[reducible] def clientProtocol : Contract Port Holdings :=
  ⟨fun v c => mayCall v c ∨ OfSystem c, afterCall⟩

/-- Every method call meets the protocol of a client program. -/
theorem perform_meets_client (a : Action) (obj : Option Object) :
    (a.perform obj).Meets clientProtocol
      (fun r v => v = ownedBy r.2 ∨ Abandons a obj r v) (ownedBy obj) := by
  by_cases hsys : SystemCall a obj
  · rcases hsys with ⟨rfl, rfl⟩ | ⟨rfl, rfl⟩ | ⟨rfl, rfl⟩
    · refine ⟨Or.inr (Or.inl rfl), fun r => ?_⟩
      rcases r with e | ⟨⟨⟩⟩
      · exact Or.inl rfl
      · exact Or.inl rfl
    · exact ⟨Or.inr (Or.inr (Or.inl rfl)), fun r => Or.inl rfl⟩
    · exact ⟨Or.inr (Or.inr (Or.inr rfl)), fun r => Or.inl rfl⟩
  · exact (perform_meets a obj hsys).weaken fun _ _ => Or.inl

/-- **If the calls a client may make keep a contract of the layer below, so does every method call.** -/
theorem perform_through {T : Signature} {ν : Type} {C : Contract T ν} {Rel : Holdings → ν → Prop}
    {impl : (c : PortCall) → Prog T c.Resp}
    (himpl : ∀ v w c, Rel v w → clientProtocol.pre v c →
      (impl c).Meets C (fun r w' => Rel (afterCall v c r) w') w)
    (a : Action) (obj : Option Object) {w : ν} (hrel : Rel (ownedBy obj) w) :
    ((a.perform obj).through impl).Meets C
      (fun r w' => ∃ v, Rel v w' ∧ (v = ownedBy r.2 ∨
        ¬ a.Allocatable ∧ ∃ c, v = { ownedBy r.2 with callback := some c })) w := by
  refine ((perform_meets_client a obj).through hrel himpl).mono ?_
  rintro r w' ⟨v, hrel', hv⟩
  exact ⟨v, hrel', hv.imp_right fun h => ⟨h.unallocatable, h.view⟩⟩

section Alike

variable {σ₁ σ₂ : Type} {m₁ : VmbRuntime σ₁} {m₂ : VmbRuntime σ₂}
  {R : (c : PortCall) → c.Resp → c.Resp → Prop}
  {P : σ₁ × Event Port → σ₂ × Event Port → Prop} {Abs : σ₁ → σ₂ → (Nat → Holdings) → Prop}
  {G : σ₁ → Prop}

/-- A run on the one runtime and a run on the other, call by call: the same calls with related
answers, made in related states. -/
abbrev CallByCall (R : (c : PortCall) → c.Resp → c.Resp → Prop)
    (Abs : σ₁ → σ₂ → (Nat → Holdings) → Prop) :
    List (σ₁ × Event Port) → List (σ₂ × Event Port) → Prop :=
  List.Forall₂ fun x y => Related (S := Port) R x.2 y.2 ∧ ∃ L, Abs x.1 y.1 L

/-- An operation has the same outcome on runtimes that serve the owners in step. -/
theorem Op.run_alike (h : ServesAlike clientProtocol m₁ m₂ PortCall.Plain R P Abs Holdings.Idle G)
    (hR : ∀ c r r', R c r r' → SameAnswer c r r')
    (hforget : ∀ s₁ s₂ L x, Abs s₁ s₂ L →
      Abs s₁ s₂ (Function.update L x { L x with callback := none }))
    {op : Op} (hop : op.action.Plain) (W : World) (s₁ : σ₁) (s₂ : σ₂) (hs : Abs s₁ s₂ W.holdings)
    (hG : G ((op.run W).run m₁ s₁).2)
    (hP : ∀ x ∈ ((op.run W).history m₁ s₁).zip ((op.run W).history m₂ s₂), P x.1 x.2) :
    SameBoth SameOutcome ((op.run W).run m₁ s₁).1 ((op.run W).run m₂ s₂).1 ∧
      Abs ((op.run W).run m₁ s₁).2 ((op.run W).run m₂ s₂).2 ((op.run W).run m₁ s₁).1.2.holdings ∧
      CallByCall R Abs ((op.run W).history m₁ s₁) ((op.run W).history m₂ s₂) := by
  unfold Op.run at hG hP ⊢
  split
  · rw [if_pos ‹_›] at hG hP
    simp only [Prog.history_bind, Prog.run_bind, Prog.pure_eq_done, Prog.run_done, Prog.history,
      List.append_nil] at hG hP ⊢
    obtain ⟨⟨hout, hobj⟩, ⟨v, hv, habs⟩, hcalls⟩ := h.run (op.action.perform (W op.target))
      (op.action.perform (W op.target)) op.target (perform_meets_client op.action _)
      ((perform_agree hop _).mono hR) hs (fun y _ => W.holdings_idle y) hG hP
    refine ⟨⟨hout, congrArg (Function.update W op.target) hobj⟩, ?_, hcalls⟩
    rw [World.holdings_update]
    rcases hv with rfl | ⟨-, -, -, hnone, c, rfl⟩
    · exact habs
    · -- a panicking start leaves its callback to nobody
      have hleft := hforget _ _ _ op.target habs
      rw [Function.update_self, Function.update_idem] at hleft
      convert hleft using 2
      rw [← hnone]
  · exact ⟨⟨.refl _, rfl⟩, hs, .nil⟩

/-- **A client program goes the same way on runtimes that serve the owners in step**: through the
same worlds, with the same outcomes and the same calls. -/
theorem runOps_alike
    (h : ServesAlike clientProtocol m₁ m₂ PortCall.Plain R P Abs Holdings.Idle G)
    (hR : ∀ c r r', R c r r' → SameAnswer c r r')
    (hforget : ∀ s₁ s₂ L x, Abs s₁ s₂ L →
      Abs s₁ s₂ (Function.update L x { L x with callback := none }))
    (ops : List Op) (hops : ∀ op ∈ ops, op.action.Plain) (W : World) (s₁ : σ₁) (s₂ : σ₂)
    (hs : Abs s₁ s₂ W.holdings) (hG : G ((runOps ops W).run m₁ s₁).2)
    (hP : ∀ x ∈ ((runOps ops W).history m₁ s₁).zip ((runOps ops W).history m₂ s₂), P x.1 x.2) :
    SameBoth (List.Forall₂ SameStep) ((runOps ops W).run m₁ s₁).1 ((runOps ops W).run m₂ s₂).1 ∧
      Abs ((runOps ops W).run m₁ s₁).2 ((runOps ops W).run m₂ s₂).2
        ((runOps ops W).run m₁ s₁).1.2.holdings ∧
      CallByCall R Abs ((runOps ops W).history m₁ s₁) ((runOps ops W).history m₂ s₂) := by
  induction ops generalizing W s₁ s₂ with
  | nil => exact ⟨⟨.nil, rfl⟩, hs, .nil⟩
  | cons op ops ih =>
      simp only [run_runOps_cons, history_runOps_cons] at hG hP ⊢
      obtain ⟨hop, hops⟩ := List.forall_mem_cons.mp hops
      have hG' : G ((op.run W).run m₁ s₁).2 := Prog.run_reflects m₁ G h.back _ _ hG
      obtain ⟨⟨hout, hW⟩, habs, hcalls⟩ := op.run_alike h hR hforget hop W s₁ s₂ hs hG'
        fun x hx => hP x (mem_zip_append_left hx)
      -- the calls so far are paired with each other, so the rest is paired with the rest
      rw [List.zip_append hcalls.length_eq, hW] at hP
      obtain ⟨⟨hsteps, hend⟩, habs', hcalls'⟩ := ih hops _ _ _ habs hG
        fun x hx => hP x (List.mem_append_right _ hx)
      rw [hW]
      exact ⟨⟨.cons ⟨rfl, rfl, hout⟩ hsteps, hend⟩, habs', List.rel_append hcalls hcalls'⟩

end Alike

end Vmb.Core

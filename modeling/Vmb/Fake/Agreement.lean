/-
# Vmb.Fake.Agreement -- the fake and the production adapter agree

The same client program is run once on the fake and once on the adapter, over an SDK that returns a
non-zero code exactly in the port calls the fake is rigged to fail. The adapter looks every identifier
up in its tables and the fake none, so the two agree only because a client names what it owns, and
what it owns is in the tables of the adapter (`Ffi.Tables`). With the same counter behind the
identifiers, the runs go the same way (`adapters_agree`): no test written against the fake is wrong
about the adapter.

After `2^64` identifiers the counters repeat themselves, and a repeated camera handle tells the two
apart.
-/
import Vmb.Core.Agreement
import Vmb.Fake.Resources
import Vmb.Ffi.Replies

namespace Vmb.Fake

open Vmb.Lib Vmb.Core Vmb.Sdk
open Vmb.Ffi (FfiState vmbFfiRuntime sdkCalls reportedPayload)

/-! ## The fake -/

/-- Every failure is rigged with an SDK error. -/
def OnlySdk (config : Config) : Prop :=
  ∀ k e, config.failures.lookup k = some e → ∃ rc m, e = .sdk rc m ∧ rc ≠ 0

theorem Uses.onlySdk {config config' : Config} (h : Uses config config') (hsdk : OnlySdk config) :
    OnlySdk config' :=
  fun k e he => hsdk k e (h.failures k e he)

variable {s s' : FakeState} {c : PortCall} {r : c.Resp}

/-- **A call of the fake is answered by the code it is rigged to fail with.** -/
theorem Effect.sameAnswer (h : Effect s c r s') (hsdk : OnlySdk s.config) (hc : ¬ OfSystem c) :
    SameAnswer c r (reply (failureCode ⟨c, r⟩) s.currentId s.config.payloadSize c) := by
  cases h with
  | failed c e r hr he =>
      obtain ⟨k, hk⟩ := he
      obtain ⟨rc, m, rfl, hne⟩ := hsdk k e hk
      exact hr.sameAnswer hne _ _
  | quiet c r hr =>
      cases c with
      | listCameras => exact absurd (Or.inr (Or.inl rfl)) hc
      | loadSettings h path =>
          obtain rfl : r = _ := hr
          exact .ok ()
      | runFeatureCommand h name =>
          obtain rfl : r = _ := hr
          exact .ok ()
      | payloadSize h =>
          obtain rfl : r = _ := hr
          exact .ok _
      | captureQueueFlush h => rfl
      | _ => exact absurd hr id
  | startRefused hs => exact absurd (Or.inl rfl) hc
  | started hs => exact absurd (Or.inl rfl) hc
  | stopped => exact absurd (Or.inr (Or.inr rfl)) hc
  | opened id hid =>
      have hreply : reply 0 s.currentId s.config.payloadSize (.openCamera id) =
          .returned (.ok ⟨s.currentId, hid⟩) := dif_pos hid
      show SameAnswer _ _ (reply 0 s.currentId s.config.payloadSize (.openCamera id))
      rw [hreply]
      exact .refl _
  | openPanicked id m hid =>
      have hreply : reply 0 s.currentId s.config.payloadSize (.openCamera id) =
          .panicked "identifiers exhausted" := dif_neg (not_not.mpr hid)
      show SameExit _ (reply 0 s.currentId s.config.payloadSize (.openCamera id))
      rw [hreply]
      exact .panicked m _
  | announced h size => exact .ok _
  | captureStarted h => exact .ok _
  | queued h slot cb => exact .ok _
  | registered cb => exact .ok _
  | _ => rfl

theorem Effect.counter_eq (h : Effect s c r s') : s'.counter = s.counter + counts ⟨c, r⟩ := by
  cases h with
  | failed c e r hr he =>
      rw [hr.counts_eq]
      rfl
  | quiet c r hr =>
      cases c with
      | openCamera camera => exact absurd hr id
      | announceFrame h size => exact absurd hr id
      | registerDiscovery cb => exact absurd hr id
      | installFrameCallback f => exact absurd hr id
      | installDiscoveryCallback f => exact absurd hr id
      | _ => rfl
  | _ => rfl

theorem Effect.started_eq (h : Effect s c r s') (hc : ¬ OfSystem c) : s'.started = s.started := by
  cases h with
  | started hs => exact absurd (Or.inl rfl) hc
  | stopped => exact absurd (Or.inr (Or.inr rfl)) hc
  | _ => rfl

/-- Only a rigged failure makes a call fail with an SDK error. -/
theorem Effect.failureCode_eq (h : Effect s c r s')
    (hrigged : ∀ k, s.config.failures.lookup k = none) : failureCode ⟨c, r⟩ = 0 := by
  cases h with
  | failed c e r hr he =>
      obtain ⟨k, hk⟩ := he
      rw [hrigged k] at hk
      cases hk
  | quiet c r hr =>
      cases c with
      | loadSettings h path => exact hr ▸ rfl
      | runFeatureCommand h name => exact hr ▸ rfl
      | payloadSize h => exact hr ▸ rfl
      | listCameras => exact hr ▸ rfl
      | captureQueueFlush h => rfl
      | _ => exact absurd hr id
  | _ => rfl

/-! ## In step -/

variable {τ : Type}

/-- The SDK mirrors the fake in this call: the SDK calls of the adapter return the code the fake
fails with (`0` if it does not) and the payload size of the fake, and no start is rigged to fail while
the fake is started. -/
structure Mirrors (api : VmbApi τ) (x : FakeState × Event Port) (y : (FfiState × τ) × Event Port) :
    Prop where
  codes : ∀ e ∈ sdkCalls api y.1 y.2.call, Ffi.code e = failureCode x.2
  payload : ∀ e ∈ sdkCalls api y.1 y.2.call, ∀ n ∈ reportedPayload e, n = x.1.config.payloadSize
  startup : x.2.call = .startup → x.1.started = true → failureCode x.2 = 0

theorem forall_reportedPayload_iff {e : Event VmbC} {size : UInt32} :
    (∀ n ∈ reportedPayload e, n = size) ↔ reportedPayload e = none ∨ reportedPayload e = some size := by
  rcases reportedPayload e with - | n
  · simp
  · simp

instance (api : VmbApi τ) (x : FakeState × Event Port) (y : (FfiState × τ) × Event Port) :
    Decidable (Mirrors api x y) :=
  decidable_of_iff
    ((∀ e ∈ sdkCalls api y.1 y.2.call, Ffi.code e = failureCode x.2) ∧
      (∀ e ∈ sdkCalls api y.1 y.2.call,
        reportedPayload e = none ∨ reportedPayload e = some x.1.config.payloadSize) ∧
      (x.2.call = .startup → x.1.started = true → failureCode x.2 = 0))
    ⟨fun h => ⟨h.1, fun e he => forall_reportedPayload_iff.mpr (h.2.1 e he), h.2.2⟩,
      fun h => ⟨h.codes, fun e he => forall_reportedPayload_iff.mp (h.payload e he), h.startup⟩⟩

/-- The fake and the adapter are in the same place. -/
structure Alike (f : FakeState) (a : FfiState × τ) (L : Nat → Holdings) : Prop where
  tables : Ffi.Tables (fun _ => False) a.1 L
  counter : a.1.counter = f.counter
  started : a.1.started = f.started
  onlySdk : OnlySdk f.config

/-- The same answer, and no identifier was unknown. -/
structure Agreed (c : PortCall) (r r' : c.Resp) : Prop where
  same : SameAnswer c r r'
  known : ∀ context, ¬ Fails (.invalidString context) c r'

/-- The two start and stop together. -/
theorem Alike.lifecycle {f : FakeState} {a : FfiState × τ} {L : Nat → Holdings} (h : Alike f a L)
    {b b' : Bool} (hb : b' = b) (t : τ) {config : Config} (huses : Uses f.config config)
    (calls : List FakeCall) :
    Alike ({ f with started := b }.books config calls) ({ a.1 with started := b' }, t) L where
  tables := { h.tables with }
  counter := h.counter
  started := hb
  onlySdk := huses.onlySdk h.onlySdk

theorem Alike.startup {api : VmbApi τ} {f : FakeState} {a : FfiState × τ} {L : Nat → Holdings}
    (h : Alike f a L)
    (hmirrors : Mirrors api (f, ⟨.startup, (fakeVmbRuntime f .startup).1⟩)
      (a, ⟨.startup, (vmbFfiRuntime api a .startup).1⟩)) :
    Agreed .startup (fakeVmbRuntime f .startup).1 (vmbFfiRuntime api a .startup).1 ∧
      Alike (fakeVmbRuntime f .startup).2 (vmbFfiRuntime api a .startup).2 L := by
  obtain ⟨f₁, config, calls, heff, huses, hstate⟩ := fakeVmbRuntime_step f .startup
  obtain ⟨hcodes, -, hrigged⟩ := hmirrors
  obtain ⟨hrun, hcalls⟩ := Ffi.vmbFfiRuntime_startup api a
  rw [hcalls] at hcodes
  rw [hrun, hstate]
  generalize (fakeVmbRuntime f .startup).1 = r at heff hcodes hrigged ⊢
  have hknown : ∀ rc context, ¬ Fails (.invalidString context) .startup (check rc) :=
    fun rc context => @reply_known rc 0 0 .startup context
  rcases hs : a.1.started with - | -
  · rw [hs] at hcodes
    have hstopped : f.started = false := h.started.symm.trans hs
    have hcode := hcodes _ (List.mem_singleton_self _)
    change (api a.2 .vmbStartup).1 = failureCode ⟨.startup, r⟩ at hcode
    simp only [Bool.false_eq_true, if_false, hcode]
    cases heff with
    | failed c e r hr he =>
        obtain ⟨k, hk⟩ := he
        obtain ⟨rc, m, rfl, hne⟩ := h.onlySdk k e hk
        obtain rfl : r = _ := hr
        have hcheck : check rc = .error (sdkError rc) := check_of_ne hne
        refine ⟨⟨?_, hknown rc⟩, ?_⟩
        · show SameResult _ (check rc)
          rw [hcheck]
          exact .error (.sdk rc _ _)
        · have hfalse : decide (check rc = .ok ()) = f.started := by simp [hcheck, hstopped]
          exact h.lifecycle hfalse _ huses calls
    | started hs' => exact ⟨⟨.ok (), hknown 0⟩, h.lifecycle rfl _ huses calls⟩
    | startRefused hs' => exact absurd (hstopped.symm.trans hs') Bool.false_ne_true
    | quiet c r hr => exact absurd hr id
  · have hstarted : f.started = true := h.started.symm.trans hs
    have hzero := hrigged rfl hstarted
    simp only [if_true]
    cases heff with
    | failed c e r hr he =>
        obtain ⟨k, hk⟩ := he
        obtain ⟨rc, m, rfl, hne⟩ := h.onlySdk k e hk
        obtain rfl : r = _ := hr
        exact absurd hzero hne
    | startRefused hs' => exact ⟨⟨.error (.refl _), by simp [Fails]⟩, h.lifecycle h.started _ huses calls⟩
    | started hs' => exact absurd (hs'.symm.trans hstarted) Bool.false_ne_true
    | quiet c r hr => exact absurd hr id

theorem Alike.shutdown (api : VmbApi τ) {f : FakeState} {a : FfiState × τ} {L : Nat → Holdings}
    (h : Alike f a L) : Alike (fakeVmbRuntime f .shutdown).2 (vmbFfiRuntime api a .shutdown).2 L where
  tables := by
    rw [Ffi.vmbFfiRuntime_shutdown]
    exact { h.tables with }
  counter := by
    rw [Ffi.vmbFfiRuntime_shutdown]
    exact h.counter
  started := by
    rw [Ffi.vmbFfiRuntime_shutdown]
    rfl
  onlySdk := h.onlySdk

/-- **The fake and the adapter serve the owners in step**: what an owner names is in the tables of the
adapter, so it answers with the code the SDK returns, which is the one the fake is rigged with. -/
theorem serves_alike (api : VmbApi τ) :
    ServesAlike clientProtocol fakeVmbRuntime (vmbFfiRuntime api) PortCall.Plain Agreed (Mirrors api)
      Alike Holdings.Idle fun f => f.counter ≤ 2 ^ 64 where
  back := counter_reflects
  step f a L x c h hidle hids hc hplain hmirrors := by
    rcases hc with hc | rfl | rfl | rfl
    · have hsystem : ¬ OfSystem c := by
        rintro (rfl | rfl | rfl) <;> exact absurd hc id
      obtain ⟨f₁, config, calls, heff, huses, hstate⟩ := fakeVmbRuntime_step f c
      have hstep := Ffi.vmbFfiRuntime_sdkCalls api a c
      have hid : a.1.currentId = f.currentId := congrArg UInt64.ofNat h.counter
      have hfake := heff.sameAnswer h.onlySdk hsystem
      have hffi := h.tables.reply_sameAnswer hc hplain hstep hmirrors.codes hmirrors.payload
      rw [hid] at hffi
      have hsame := hfake.trans hffi
      have hcounter : (vmbFfiRuntime api a c).2.1.counter = f₁.counter := by
        rw [hstep.counter_eq, heff.counter_eq, hsame.counts_eq, h.counter]
      rw [hstate] at hids ⊢
      refine ⟨⟨hsame, fun context hfails => ?_⟩, ?_, hcounter, ?_, huses.onlySdk h.onlySdk⟩
      · exact reply_known (hffi.fails (fun rc m hne => by cases hne) hfails)
      · have hnext := h.tables.step hc hstep (hcounter ▸ hids) fun _ _ y hy => hidle y hy
        rw [hsame.afterCall_eq] at hnext
        exact hnext
      · rw [hstep.started_eq hsystem, h.started]
        exact (heff.started_eq hsystem).symm
    · show _ ∧ Alike _ _ (Function.update L x (L x))
      rw [Function.update_eq_self]
      exact h.startup hmirrors
    · exact absurd hplain id
    · show _ ∧ Alike _ _ (Function.update L x (L x))
      rw [Function.update_eq_self]
      exact ⟨⟨rfl, fun _ => id⟩, h.shutdown api⟩

/-! ## Runs -/

/-- A run on a new fake. -/
def onFake (config : Config) (ops : List Op) : (List Core.Step × World) × FakeState :=
  (runOps ops .empty).run fakeVmbRuntime (.configured config)

/-- Its port calls, each with the state it was made in. -/
def fakeCalls (config : Config) (ops : List Op) : List (FakeState × Event Port) :=
  (runOps ops .empty).history fakeVmbRuntime (.configured config)

/-- The same run on a new adapter. -/
def onAdapter (api : VmbApi τ) (t : τ) (ops : List Op) : (List Core.Step × World) × (FfiState × τ) :=
  (runOps ops .empty).run (vmbFfiRuntime api) (.new, t)

/-- Its port calls. -/
def adapterCalls (api : VmbApi τ) (t : τ) (ops : List Op) : List ((FfiState × τ) × Event Port) :=
  (runOps ops .empty).history (vmbFfiRuntime api) (.new, t)

/-- The run on the adapter goes as the run on the fake. -/
structure SameRun (config : Config) (api : VmbApi τ) (t : τ) (ops : List Op) : Prop where
  /-- Every operation is started in the same world, with the same sessions, and has the same
  outcome. -/
  steps : List.Forall₂ SameStep (onFake config ops).1.1 (onAdapter api t ops).1.1
  world : (onAdapter api t ops).1.2 = (onFake config ops).1.2
  /-- The same port calls are made, in the same started state, and answered alike. -/
  calls : List.Forall₂ (fun x y => Related (S := Port) SameAnswer x.2 y.2 ∧
    y.1.1.started = x.1.started) (fakeCalls config ops) (adapterCalls api t ops)
  /-- The same identifiers are issued in the same order. -/
  issued : (adapterCalls api t ops).filterMap (fun y => issued y.2) =
    (fakeCalls config ops).filterMap fun x => issued x.2
  started : (onAdapter api t ops).2.1.started = (onFake config ops).2.started
  /-- The adapter knows every identifier and can pass on every string. -/
  known : ∀ y ∈ adapterCalls api t ops, ∀ context,
    ¬ Fails (.invalidString context) y.2.call y.2.resp

theorem alike_new (config : Config) (hsdk : OnlySdk config) (t : τ) :
    Alike (.configured config) (.new, t) World.empty.holdings where
  tables := Ffi.tables_new fun _ => rfl
  counter := rfl
  started := rfl
  onlySdk := hsdk

/-- **The fake and the production adapter agree.** Every client program goes the same way on both, if
the SDK returns a non-zero code exactly in the port calls the fake is rigged to fail, and fewer than
`2^64` identifiers are issued. -/
theorem adapters_agree (config : Config) (hsdk : OnlySdk config) (api : VmbApi τ) (t : τ)
    (ops : List Op) (hops : ∀ op ∈ ops, op.action.Plain)
    (hmirrors : ∀ x ∈ (fakeCalls config ops).zip (adapterCalls api t ops), Mirrors api x.1 x.2)
    (hids : (onFake config ops).2.counter ≤ 2 ^ 64) : SameRun config api t ops := by
  obtain ⟨⟨hsteps, hworld⟩, halike, hcalls⟩ := runOps_alike (serves_alike api) (fun _ _ _ h => h.same)
    (fun _ _ _ x h => { h with tables := h.tables.abandon fun _ _ _ => id }) ops hops .empty _ _
    (alike_new config hsdk t) hids hmirrors
  have hsame : List.Forall₂ (fun x y => Related (S := Port) SameAnswer x.2 y.2 ∧
      y.1.1.started = x.1.started) (fakeCalls config ops) (adapterCalls api t ops) := by
    refine hcalls.imp fun x y hxy => ?_
    obtain ⟨hrelated, L, hstate⟩ := hxy
    refine ⟨?_, hstate.started⟩
    rcases x with ⟨f, e⟩
    rcases y with ⟨a, e'⟩
    cases hrelated with
    | mk c r r' hagreed => exact .mk c r r' hagreed.same
  refine ⟨hsteps, hworld, hsame, ?_, halike.started, ?_⟩
  · refine filterMap_eq_of_forall₂ hsame fun x y hxy => ?_
    rcases x with ⟨f, e⟩
    rcases y with ⟨a, e'⟩
    cases hxy.1 with
    | mk c r r' h => exact h.issued_eq
  · refine forall_mem_of_forall₂ hcalls fun x y hxy => ?_
    rcases x with ⟨f, e⟩
    rcases y with ⟨a, e'⟩
    cases hxy.1 with
    | mk c r r' h => exact h.known

/-- The second frame cannot be announced. -/
def announceFails : Config :=
  { FakeState.new.config with
    failures := (∅ : Finmap fun _ : Method × UInt64 => VmbError).insert (.announceFrame, 1)
      (.sdk (-14) "no buffers") }

/-- An SDK that refuses the announcement it gets in state `2`. -/
def scarceApi : VmbApi Nat := fun n c =>
  match c with
  | .vmbFrameAnnounce _ _ => (if n = 2 then -14 else 0, n + 1)
  | c => mockApi n c

/-- A start fails, and the next one succeeds. -/
def startTwice : List Op :=
  [⟨0, none, .startup⟩, ⟨1, some 0, .openCamera "cam-a"⟩, ⟨1, none, .startCapture 3 ⟨1⟩⟩,
    ⟨2, some 0, .registerDiscovery ⟨9⟩⟩, ⟨1, none, .startCapture 1 ⟨2⟩⟩, ⟨0, none, .startup⟩,
    ⟨2, none, .drop⟩, ⟨1, none, .drop⟩, ⟨0, none, .drop⟩]

theorem adapters_agree_startTwice : SameRun announceFails scarceApi 0 startTwice := by
  refine adapters_agree announceFails (fun k e he => ?_) scarceApi 0 startTwice (by decide)
    (by decide +kernel) (by decide +kernel)
  rcases lookup_insert_eq_some.mp he with ⟨-, rfl⟩ | ⟨-, he⟩
  · exact ⟨-14, "no buffers", rfl, by decide⟩
  · cases he

/-! ### An SDK that never fails -/

/-- A configuration without rigged failures. -/
def unrigged : Config := FakeState.new.config

theorem mock_code (n : Nat) (c : SdkCall) : Ffi.code ⟨c, (mockApi n c).1⟩ = 0 := by
  cases c <;> rfl

theorem mock_payload (n : Nat) (c : SdkCall) :
    ∀ size ∈ reportedPayload ⟨c, (mockApi n c).1⟩, size = 1024 := by
  cases c with
  | vmbPayloadSizeGet handle => exact fun size h => (Option.some.inj h).symm
  | _ => exact fun size h => by cases h

/-- It mirrors a fake without rigged failures. -/
theorem mirrors_mock (t : Nat) (ops : List Op) :
    ∀ x ∈ (fakeCalls unrigged ops).zip (adapterCalls mockApi t ops), Mirrors mockApi x.1 x.2 := by
  rintro ⟨x, y⟩ hxy
  obtain ⟨hx, hy⟩ := List.of_mem_zip hxy
  have hconfig : (∀ k, x.1.config.failures.lookup k = none) ∧ x.1.config.payloadSize = 1024 := by
    refine (Prog.always_of_step fakeVmbRuntime (fun f : FakeState =>
      (∀ k, f.config.failures.lookup k = none) ∧ f.config.payloadSize = 1024) (fun f c hf => ?_)
      (runOps ops .empty) (.configured unrigged) ⟨fun k => Finmap.lookup_empty k, rfl⟩).1 x hx
    obtain ⟨f₁, config, calls, -, huses, hstate⟩ := fakeVmbRuntime_step f c
    rw [hstate]
    refine ⟨fun k => ?_, huses.payloadSize.trans hf.2⟩
    rcases hk : config.failures.lookup k with - | e
    · exact hk
    · have hold := huses.failures k e hk
      rw [hf.1 k] at hold
      cases hold
  have hfailure : failureCode x.2 = 0 := by
    obtain ⟨f₁, config, calls, heff, -, -⟩ := fakeVmbRuntime_step x.1 x.2.call
    rw [← Prog.resp_of_mem_history hx] at heff
    exact heff.failureCode_eq hconfig.1
  have hsdk : ∀ e ∈ sdkCalls mockApi y.1 y.2.call, ∃ n, e.resp = (mockApi n e.call).1 := by
    intro e he
    obtain ⟨z, hz, rfl⟩ := List.mem_map.mp he
    exact ⟨z.1, Prog.resp_of_mem_history hz⟩
  refine ⟨?_, ?_, fun _ _ => hfailure⟩
  · rintro ⟨c, r⟩ he
    obtain ⟨n, hr⟩ := hsdk _ he
    obtain rfl : r = (mockApi n c).1 := hr
    rw [hfailure]
    exact mock_code n c
  · rintro ⟨c, r⟩ he
    obtain ⟨n, hr⟩ := hsdk _ he
    obtain rfl : r = (mockApi n c).1 := hr
    rw [hconfig.2]
    exact mock_payload n c

theorem onlySdk_unrigged : OnlySdk unrigged := by
  intro k e he
  cases he

/-! ### A wrapped counter -/

section Restart

variable {σ : Type} {m : VmbRuntime σ} {s s₁ s₂ : σ} {h : CameraHandle} {id : String}
  {cb : FrameCallbackId}

/-- A capture without buffers, on a runtime where its calls succeed. -/
theorem startCapture_run {p : UInt32} {f : FrameCallback}
    (hpayload : m s (.payloadSize h) = (.ok p, s))
    (hinstall : m s (.installFrameCallback f) = (cb, s₁))
    (hstart : m s₁ (.captureStart h) = (.ok (), s₁))
    (hacquire : m s₁ (.runFeatureCommand h featureAcquisitionStart) = (.ok (), s₁)) :
    ((⟨h, id, none⟩ : Camera).startCapture 0 f).run m s =
      ((.returned (.ok ()), ⟨h, id, some ⟨cb, []⟩⟩), s₁) := by
  unfold Camera.startCapture
  rw [Prog.run_bind, run_port, hpayload]
  show Prog.run m (_ >>= _) s = _
  rw [Prog.run_bind, run_port, hinstall]
  show Prog.run m (Camera.primeCapture h p cb 0 [] >>= _) s₁ = _
  have hprime : (Camera.primeCapture h p cb 0 []).run m s₁ = (.ok [], s₁) := by
    show Prog.run m (port (.captureStart h) >>= _) s₁ = _
    rw [Prog.run_bind, run_port, hstart]
    show Prog.run m (port (.runFeatureCommand h featureAcquisitionStart) >>= _) s₁ = _
    rw [Prog.run_bind, run_port, hacquire]
    rfl
  rw [Prog.run_bind, hprime]
  rfl

theorem stopCapture_run {slots : List FrameSlotId}
    (hstop : m s (.runFeatureCommand h featureAcquisitionStop) = (.ok (), s))
    (hend : m s (.captureEnd h) = ((), s)) (hflush : m s (.captureQueueFlush h) = ((), s))
    (hrevoke : m s (.frameRevokeAll h) = ((), s₁))
    (huninstall : m s₁ (.uninstallFrameCallback cb) = ((), s₂)) :
    ((⟨h, id, some ⟨cb, slots⟩⟩ : Camera).stopCapture).run m s =
      ((.ok (), ⟨h, id, none⟩), s₂) := by
  unfold Camera.stopCapture
  rw [Prog.run_bind, run_port, hstop]
  show Prog.run m (Camera.unwind h cb >>= _) s = _
  have hunwind : (Camera.unwind h cb).run m s = ((), s₂) := by
    unfold Camera.unwind
    rw [Prog.run_bind, run_port, hend, Prog.run_bind, run_port, hflush]
    show m (m s (.frameRevokeAll h)).2 (.uninstallFrameCallback cb) = _
    rw [hrevoke]
    exact huninstall
  rw [Prog.run_bind, hunwind]
  rfl

end Restart

theorem vmbFfiRuntime_eq {api : VmbApi τ} {s s' : FfiState} {t t' : τ} {c : PortCall} {r : c.Resp}
    (h : (s.dispatch c).run api t = ((r, s'), t')) : vmbFfiRuntime api (s, t) c = (r, (s', t')) := by
  unfold vmbFfiRuntime
  rw [h]

section Mock

variable {s : FfiState} {t : Nat} {h : CameraHandle} {raw : VmbHandle}

theorem mock_payloadSize (hraw : s.cameras.lookup h = some raw) :
    vmbFfiRuntime mockApi (s, t) (.payloadSize h) = (.ok 1024, (s, t)) := by
  apply vmbFfiRuntime_eq
  show (FfiState.payloadSize s h).run mockApi t = _
  unfold FfiState.payloadSize
  rw [FfiState.resolveCamera_ok hraw]
  rfl

theorem mock_captureStart (hraw : s.cameras.lookup h = some raw) :
    vmbFfiRuntime mockApi (s, t) (.captureStart h) = (.ok (), (s, t)) := by
  apply vmbFfiRuntime_eq
  show (FfiState.captureStart s h).run mockApi t = _
  unfold FfiState.captureStart
  rw [FfiState.resolveCamera_ok hraw]
  rfl

theorem mock_runFeatureCommand (hraw : s.cameras.lookup h = some raw) {name : String}
    (hname : (0 : UInt8) ∉ bytes name) :
    vmbFfiRuntime mockApi (s, t) (.runFeatureCommand h name) = (.ok (), (s, t)) := by
  apply vmbFfiRuntime_eq
  show (s.runFeatureCommand h name).run mockApi t = _
  unfold FfiState.runFeatureCommand
  rw [FfiState.resolveCamera_ok hraw, CString.new_eq_some hname]
  rfl

theorem mock_captureEnd (hraw : s.cameras.lookup h = some raw) :
    vmbFfiRuntime mockApi (s, t) (.captureEnd h) = ((), (s, t)) := by
  apply vmbFfiRuntime_eq
  show (FfiState.captureEnd s h).run mockApi t = _
  unfold FfiState.captureEnd
  rw [FfiState.resolveCamera_ok hraw]
  rfl

theorem mock_captureQueueFlush (hraw : s.cameras.lookup h = some raw) :
    vmbFfiRuntime mockApi (s, t) (.captureQueueFlush h) = ((), (s, t)) := by
  apply vmbFfiRuntime_eq
  show (FfiState.captureQueueFlush s h).run mockApi t = _
  unfold FfiState.captureQueueFlush
  rw [FfiState.resolveCamera_ok hraw]
  rfl

theorem mock_frameRevokeAll (hraw : s.cameras.lookup h = some raw) :
    vmbFfiRuntime mockApi (s, t) (.frameRevokeAll h) = ((), ({ s with frames := ∅ }, t)) := by
  apply vmbFfiRuntime_eq
  show (FfiState.frameRevokeAll s h).run mockApi t = _
  unfold FfiState.frameRevokeAll
  rw [FfiState.resolveCamera_ok hraw]
  rfl

theorem mock_closeCamera (hraw : s.cameras.lookup h = some raw) :
    vmbFfiRuntime mockApi (s, t) (.closeCamera h) =
      ((), ({ s with cameras := s.cameras.erase h }, t)) := by
  apply vmbFfiRuntime_eq
  show (s.closeCamera h).run mockApi t = _
  unfold FfiState.closeCamera
  rw [hraw]
  rfl

theorem mock_loadSettings_unknown (hnone : s.cameras.lookup h = none) (path : Path) :
    vmbFfiRuntime mockApi (s, t) (.loadSettings h path) = (.error Ffi.unknownCamera, (s, t)) := by
  apply vmbFfiRuntime_eq
  show (s.loadSettings h path).run mockApi t = _
  unfold FfiState.loadSettings
  rw [FfiState.resolveCamera_unknown hnone]
  rfl

end Mock

/-- A camera is started without buffers, and stopped. -/
def restart : List Op := [⟨0, none, .startCapture 0 ⟨0⟩⟩, ⟨0, none, .stopCapture⟩]

/-- A restart takes one identifier and leaves no trace. -/
theorem restart_run {s : FfiState} {t : Nat} {W : World} {h : CameraHandle} {id : String}
    (hW : W 0 = some (.camera ⟨h, id, none⟩ ⟨0⟩)) {raw : VmbHandle}
    (hraw : s.cameras.lookup h = some raw) :
    ((runOps restart W).run (vmbFfiRuntime mockApi) (s, t)).1.2 = W ∧
      ∃ s', ((runOps restart W).run (vmbFfiRuntime mockApi) (s, t)).2 = (s', t) ∧
        s'.cameras = s.cameras ∧ s'.counter = s.counter + 1 := by
  let s₁ : FfiState := (s.installFrameCallback ⟨0⟩).2
  let s₂ : FfiState := { s₁ with frames := ∅ }
  let s₃ : FfiState := s₂.uninstallFrameCallback ⟨s.currentId⟩
  have hraw₁ : s₁.cameras.lookup h = some raw := hraw
  have hacquisition : (0 : UInt8) ∉ bytes featureAcquisitionStart := by decide
  have hstop : (0 : UInt8) ∉ bytes featureAcquisitionStop := by decide
  have hstarted : ((⟨0, none, .startCapture 0 ⟨0⟩⟩ : Op).run W).run (vmbFfiRuntime mockApi) (s, t) =
      ((.finished (.returned (.ok ())),
        Function.update W 0 (some (.camera ⟨h, id, some ⟨⟨s.currentId⟩, []⟩⟩ ⟨0⟩))), (s₁, t)) := by
    apply Op.run_of_perform rfl
    rw [hW]
    show Prog.run _ (_ >>= _) _ = _
    rw [Prog.run_bind, startCapture_run (mock_payloadSize hraw) rfl (mock_captureStart hraw₁)
      (mock_runFeatureCommand hraw₁ hacquisition)]
    rfl
  have hstopped : ∀ W' : World, W' 0 = some (.camera ⟨h, id, some ⟨⟨s.currentId⟩, []⟩⟩ ⟨0⟩) →
      ((⟨0, none, .stopCapture⟩ : Op).run W').run (vmbFfiRuntime mockApi) (s₁, t) =
        ((.ofResult (.ok ()), Function.update W' 0 (some (.camera ⟨h, id, none⟩ ⟨0⟩))), (s₃, t)) := by
    intro W' hW'
    have huninstall : vmbFfiRuntime mockApi (s₂, t) (.uninstallFrameCallback ⟨s.currentId⟩) =
        ((), (s₃, t)) := rfl
    apply Op.run_of_perform rfl
    rw [hW']
    show Prog.run _ (_ >>= _) _ = _
    rw [Prog.run_bind, stopCapture_run (mock_runFeatureCommand hraw₁ hstop) (mock_captureEnd hraw₁)
      (mock_captureQueueFlush hraw₁) (mock_frameRevokeAll hraw₁) huninstall]
    rfl
  unfold restart
  rw [run_runOps_cons, hstarted]
  simp only
  rw [run_runOps_cons, hstopped _ (Function.update_self ..), Function.update_idem, ← hW,
    Function.update_eq_self]
  exact ⟨rfl, s₃, rfl, rfl, rfl⟩

/-- Any number of restarts. -/
theorem restarts_run (k : Nat) {s : FfiState} {t : Nat} {W : World} {h : CameraHandle} {id : String}
    (hW : W 0 = some (.camera ⟨h, id, none⟩ ⟨0⟩)) {raw : VmbHandle}
    (hraw : s.cameras.lookup h = some raw) :
    ((runOps (List.replicate k restart).flatten W).run (vmbFfiRuntime mockApi) (s, t)).1.2 = W ∧
      ∃ s', ((runOps (List.replicate k restart).flatten W).run (vmbFfiRuntime mockApi) (s, t)).2 =
          (s', t) ∧ s'.cameras = s.cameras ∧ s'.counter = s.counter + k := by
  induction k generalizing s with
  | zero => exact ⟨rfl, s, rfl, rfl, rfl⟩
  | succ k ih =>
      obtain ⟨hworld, s₁, hrun, hcameras, hcounter⟩ := restart_run (t := t) hW hraw
      obtain ⟨hworld', s₂, hrun', hcameras', hcounter'⟩ := ih (hcameras.symm ▸ hraw)
      rw [List.replicate_succ, List.flatten_cons, run_runOps_append]
      simp only
      rw [hworld, hrun]
      exact ⟨hworld', s₂, hrun', hcameras'.trans hcameras, by omega⟩

/-- The first handle of a new counter, and of a wrapped one. -/
def firstHandle : CameraHandle := ⟨⟨1, nonZero_one⟩⟩

theorem openFirst_run {s : FfiState} (hid : s.currentId = 1) {t : Nat} {name : String}
    (hname : (0 : UInt8) ∉ bytes name) :
    vmbFfiRuntime mockApi (s, t) (.openCamera name) = (.returned (.ok firstHandle),
      ({ s with counter := s.counter + 1, cameras := s.cameras.insert firstHandle t }, t + 1)) := by
  apply vmbFfiRuntime_eq
  show (s.openCamera name).run mockApi t = _
  unfold FfiState.openCamera
  rw [CString.new_eq_some hname]
  have hnext : s.nextId = (.returned firstHandle.id, { s with counter := s.counter + 1 }) := by
    unfold FfiState.nextId
    have hne : s.currentId ≠ 0 := by
      rw [hid]
      decide
    rw [dif_pos hne]
    refine Prod.ext (congrArg Exit.returned (Subtype.ext hid)) rfl
  rw [hnext]
  rfl

theorem openCameraOn_run {s : FfiState} (hid : s.currentId = 1) {t : Nat} {name : String}
    (hname : (0 : UInt8) ∉ bytes name) :
    (Action.openCameraOn name).run (vmbFfiRuntime mockApi) (s, t) =
      ((.ofResult (.ok () : Result Unit), some (.camera ⟨firstHandle, name, none⟩ ⟨0⟩)),
        ({ s with counter := s.counter + 1, cameras := s.cameras.insert firstHandle t }, t + 1)) := by
  have hopen : (VmbSystem.openCamera name).run (vmbFfiRuntime mockApi) (s, t) =
      (.returned (.ok ⟨firstHandle, name, none⟩),
        ({ s with counter := s.counter + 1, cameras := s.cameras.insert firstHandle t }, t + 1)) := by
    show Prog.run _ (port (.openCamera name) >>= _) _ = _
    rw [Prog.run_bind, run_port, openFirst_run hid hname]
    rfl
  unfold Action.openCameraOn
  rw [Prog.run_bind, hopen]
  rfl

/-- Dropping an idle camera closes its handle. -/
theorem dropIdle_run {s : FfiState} {t : Nat} {W : World} {h : CameraHandle} {id : String}
    (hW : W 0 = some (.camera ⟨h, id, none⟩ ⟨0⟩)) {raw : VmbHandle}
    (hraw : s.cameras.lookup h = some raw) :
    ((⟨0, none, .drop⟩ : Op).run W).run (vmbFfiRuntime mockApi) (s, t) =
      ((.ofResult (.ok () : Result Unit), Function.update W 0 none),
        ({ s with cameras := s.cameras.erase h }, t)) := by
  apply Op.run_of_perform rfl
  rw [hW]
  show Prog.run _ (port (.closeCamera h) >>= _) _ = _
  rw [Prog.run_bind, run_port, mock_closeCamera hraw]
  rfl

/-- Loading settings into a camera whose handle the adapter does not know. -/
theorem loadSettings_history {s : FfiState} {t : Nat} {W : World} {h : CameraHandle} {id : String}
    (hW : W 1 = some (.camera ⟨h, id, none⟩ ⟨0⟩)) (hnone : s.cameras.lookup h = none) (path : Path) :
    ((⟨1, none, .loadSettings path⟩ : Op).run W).history (vmbFfiRuntime mockApi) (s, t) =
      [((s, t), ⟨.loadSettings h path, .error Ffi.unknownCamera⟩)] := by
  unfold Op.run
  rw [if_pos (by simp [Op.Reachable]), hW]
  show [((s, t), (⟨_, (vmbFfiRuntime mockApi (s, t) (.loadSettings h path)).1⟩ : Event Port))] = _
  rw [mock_loadSettings_unknown hnone]

/-- The wrapped counter hands the handle of the first camera out again, and dropping that camera takes
it from the second. -/
theorem reopened_unknown {s : FfiState} (hid : s.currentId = 1) (t : Nat) {W : World}
    (hW₀ : W 0 = some (.camera ⟨firstHandle, "cam-a", none⟩ ⟨0⟩)) (hW₁ : W 1 = none) :
    ∃ y ∈ (runOps [⟨1, none, .openCamera "cam-b"⟩, ⟨0, none, .drop⟩, ⟨1, none, .loadSettings []⟩]
        W).history (vmbFfiRuntime mockApi) (s, t),
      Fails (.invalidString "unknown camera handle") y.2.call y.2.resp := by
  have hB : (0 : UInt8) ∉ bytes "cam-b" := by decide
  have hopened : ((⟨1, none, .openCamera "cam-b"⟩ : Op).run W).run (vmbFfiRuntime mockApi) (s, t) =
      ((.ofResult (.ok () : Result Unit),
        Function.update W 1 (some (.camera ⟨firstHandle, "cam-b", none⟩ ⟨0⟩))),
        ({ s with counter := s.counter + 1, cameras := s.cameras.insert firstHandle t }, t + 1)) := by
    apply Op.run_of_perform rfl
    rw [hW₁]
    exact openCameraOn_run hid hB
  rw [history_runOps_cons, history_runOps_cons, history_runOps_cons, hopened]
  simp only
  rw [dropIdle_run (by rw [Function.update_of_ne (by decide), hW₀]) (Finmap.lookup_insert _)]
  simp only
  rw [loadSettings_history (by rw [Function.update_of_ne (by decide), Function.update_self])
    (Finmap.lookup_erase ..)]
  exact ⟨_, List.mem_append_right _ (List.mem_append_right _ (List.mem_append_left _
    (List.mem_singleton_self _))), rfl⟩

/-- A camera is opened, restarted `k` times, and dropped when another camera has been opened. -/
def openRestartOpen (k : Nat) : List Op :=
  ⟨0, none, .openCamera "cam-a"⟩ :: ((List.replicate k restart).flatten ++
    [⟨1, none, .openCamera "cam-b"⟩, ⟨0, none, .drop⟩, ⟨1, none, .loadSettings []⟩])

theorem openRestartOpen_plain (k : Nat) : ∀ op ∈ openRestartOpen k, op.action.Plain := by
  intro op hop
  simp only [openRestartOpen, List.mem_cons, List.mem_append, List.mem_flatten, List.mem_replicate,
    List.not_mem_nil, or_false] at hop
  rcases hop with rfl | ⟨l, ⟨-, rfl⟩, hop⟩ | rfl | rfl | rfl
  · show (0 : UInt8) ∉ bytes "cam-a"
    decide
  · simp only [restart, List.mem_cons, List.not_mem_nil, or_false] at hop
    rcases hop with rfl | rfl <;> trivial
  · show (0 : UInt8) ∉ bytes "cam-b"
    decide
  · trivial
  · exact List.not_mem_nil

theorem openRestartOpen_unknown {k : Nat} (hk : UInt64.ofNat (2 + k) = 1) :
    ∃ y ∈ adapterCalls mockApi 1 (openRestartOpen k),
      Fails (.invalidString "unknown camera handle") y.2.call y.2.resp := by
  unfold adapterCalls
  have hA : (0 : UInt8) ∉ bytes "cam-a" := by decide
  have hopened : ((⟨0, none, .openCamera "cam-a"⟩ : Op).run .empty).run (vmbFfiRuntime mockApi)
      (.new, 1) = ((.ofResult (.ok () : Result Unit),
        Function.update World.empty 0 (some (.camera ⟨firstHandle, "cam-a", none⟩ ⟨0⟩))),
        ({ FfiState.new with
          counter := FfiState.new.counter + 1
          cameras := FfiState.new.cameras.insert firstHandle 1 }, 2)) :=
    Op.run_of_perform rfl (openCameraOn_run rfl hA)
  have hW : Function.update World.empty 0 (some (.camera ⟨firstHandle, "cam-a", none⟩ ⟨0⟩)) 0 =
      some (.camera ⟨firstHandle, "cam-a", none⟩ ⟨0⟩) := Function.update_self ..
  have hraw : (FfiState.new.cameras.insert firstHandle 1).lookup firstHandle = some 1 :=
    Finmap.lookup_insert _
  obtain ⟨hworld, a₂, hstate, -, hcounter⟩ := restarts_run k (s := { FfiState.new with
    counter := FfiState.new.counter + 1
    cameras := FfiState.new.cameras.insert firstHandle 1 }) (t := 2) hW hraw
  unfold openRestartOpen
  rw [history_runOps_cons, hopened]
  simp only
  rw [history_runOps_append, hworld, hstate]
  have hid : a₂.currentId = 1 := by
    unfold FfiState.currentId
    rw [hcounter]
    exact hk
  obtain ⟨y, hy, hfails⟩ := reopened_unknown hid 2 hW rfl
  exact ⟨y, List.mem_append_right _ (List.mem_append_right _ hy), hfails⟩

/-- **After `2^64` identifiers the two part**: the adapter does not know the handle of a camera that
is open, though no call is rigged to fail. -/
theorem not_sameRun_wrapped :
    OnlySdk unrigged ∧ (∀ op ∈ openRestartOpen (2 ^ 64 - 1), op.action.Plain) ∧
      (∀ x ∈ (fakeCalls unrigged (openRestartOpen (2 ^ 64 - 1))).zip
        (adapterCalls mockApi 1 (openRestartOpen (2 ^ 64 - 1))), Mirrors mockApi x.1 x.2) ∧
      ¬ SameRun unrigged mockApi 1 (openRestartOpen (2 ^ 64 - 1)) := by
  refine ⟨onlySdk_unrigged, openRestartOpen_plain _, mirrors_mock 1 _, fun h => ?_⟩
  have hwraps : UInt64.ofNat (2 + (2 ^ 64 - 1)) = 1 := by decide
  obtain ⟨y, hy, hfails⟩ := openRestartOpen_unknown hwraps
  exact h.known y hy _ hfails

end Vmb.Fake
